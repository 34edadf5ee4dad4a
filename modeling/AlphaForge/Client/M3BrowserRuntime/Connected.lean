/-
`withSessionRead`, `refresh` and `connect`, part by part.

Most parts keep `Reading` as they find it.  A publication may end it, and after one
only the revision is known; a refresh inside a connect leaves the connect a revision
that has passed.
-/
import AlphaForge.Client.M3BrowserRuntime.Authority

namespace AlphaForge
namespace M3BrowserRuntime

open Evm Async
open M3SubmissionJournal (PendingWalletSubmission SubmissionStorage chainId)

variable {c : Options} {first : SubmissionStorage} {n r r₀ : Nat} {F : Page → Prop}
  {P E : Page → Prop}

/-! ## `#withSessionRead` -/

theorem beginRead_runs :
    Runs c first n (fun p => r₀ ≤ p.readRevision) (beginRead n)
      (fun r p => Reading n r (fun _ => True) p ∧ r₀ < r) E := by
  intro p hp
  refine ⟨⟨.kept rfl rfl, .began rfl rfl rfl rfl, fun hfit => ⟨hfit.flow, hfit.pass⟩⟩, ?_, ?_⟩
  · exact ⟨Nat.le_refl _, fun _ => ⟨rfl, Or.inl rfl, trivial⟩⟩
  · exact Nat.lt_succ_of_le hp

theorem listen_keeps (hP : Stable n P) : Keeps c first n P (listen c r) := by
  refine Triple.ite (fun _ => ?_) fun _ => pure_keeps _
  refine (input_keeps _).bind fun (listening : Bool) => ensure_keeps.bind fun _ => ?_
  exact modify_untouched hP fun p =>
    ⟨rfl, rfl, rfl, rfl, Or.inl rfl, rfl, rfl, fun _ he => he, fun _ he => he⟩

theorem closeAuthority_runs (e : Failure) :
    Runs c first n (fun p => r ≤ p.readRevision) (closeAuthority r e)
      (fun _ p => r ≤ p.readRevision) (fun p => r ≤ p.readRevision) := by
  refine Triple.bind (Q := fun _ p => r ≤ p.readRevision) (Triple.modify fun p hp => ?_)
    fun _ => Triple.throw fun _ hp => hp
  split
  · exact ⟨invalidate_guar p, Nat.le_trans hp (invalidate_le p)⟩
  · exact ⟨Guar.refl p, hp⟩

theorem withSessionRead_runs {run : Nat → Runtime Unit}
    (hrun : ∀ r, r₀ < r → Runs c first n (Reading n r fun _ => True) (run r)
      (fun _ p => r ≤ p.readRevision) (fun p => r ≤ p.readRevision)) :
    Runs c first n (fun p => r₀ ≤ p.readRevision) (withSessionRead c n run)
      (fun _ p => r₀ < p.readRevision) (fun p => r₀ < p.readRevision) := by
  refine Triple.bind beginRead_runs fun r => Runs.of_fact fun hlt => ?_
  have hlast : ∀ p : Page, r ≤ p.readRevision →
      Guar c n p { p with listening := p.listening.filter (· ≠ r) } ∧ r₀ < p.readRevision :=
    fun p hp => ⟨Untouched.guar
      ⟨rfl, rfl, rfl, rfl, Or.inl rfl, rfl, rfl, fun _ he => he, fun _ he => he⟩,
      Nat.lt_of_lt_of_le hlt hp⟩
  have hbody : Runs c first n (Reading n r fun _ => True) (do listen c r; run r)
      (fun _ p => r ≤ p.readRevision) (fun p => r ≤ p.readRevision) :=
    ((listen_keeps (Reading.stable lasting_true)).weaken (fun _ h => h) (fun _ _ h => h)
      fun _ h => h.begun).bind fun _ => hrun r hlt
  refine Triple.finally_ (Triple.weaken ?_ (fun _ h => h) (fun _ p hp => hlast p hp) hlast)
  exact Triple.recover hbody fun e => closeAuthority_runs e

/-! ## `refresh` -/

section Vault

variable {d : Deployment} (hF : Lasting F)
include hF

theorem register_keeps (item : PendingWalletSubmission) :
    Keeps c first n (Reading n r F) (register c r item) := by
  refine read_keeps.bind fun p => Triple.ite (fun _ => ?_) fun _ => pure_keeps _
  refine ensure_keeps.bind fun _ => (request_keeps (Reading.stable hF) _).bind
    fun (registered : Bool) => ensure_keeps.bind fun _ => assertCurrent_keeps.bind fun _ => ?_
  exact modify_untouched (Reading.stable hF) fun p =>
    ⟨rfl, rfl, rfl, rfl, Or.inl rfl, rfl, rfl, fun _ he => he, fun _ he => he⟩

omit hF in
/-- The journal without an entry is one that it may keep. -/
theorem remove_writes {p : Page} {storage : SubmissionStorage} {item : PendingWalletSubmission}
    (h : M3SubmissionJournal.remove (context c) item p.storage = .ok storage) :
    SendChange c n p (note (.settled item.operationId) { p with storage }) := by
  obtain ⟨previous, hread, hstorage⟩ := M3SubmissionJournal.remove_spec h
  exact .settled item previous hread rfl
    ⟨(M3SubmissionJournal.read_acceptable hread).filter _, hstorage⟩

theorem settle_keeps (hd : c.deployment = some d) (item : PendingWalletSubmission)
    (evidence : OperationEvidence) : Keeps c first n (Reading n r F) (settle d item evidence) := by
  have hcontext : context c = d.context := by rw [context, hd]
  refine Triple.ite (fun _ => read_runs fun p hp => ?_) fun _ => pure_keeps _
  refine Triple.bind (journaled_runs.weaken (fun _ h => h) (fun _ _ h => h) fun _ h => h ▸ hp)
    fun storage => Runs.of_fact fun hremove => Triple.modify ?_
  rintro _ rfl
  refine ⟨⟨remove_writes (hcontext ▸ hremove), .kept rfl rfl (Or.inl rfl) rfl rfl,
    fun hfit => ⟨hfit.flow, hfit.pass⟩⟩, ?_⟩
  refine Reading.stable hF _ _ hp ⟨rfl, fun s hs _ => (List.mem_filter.mp hs).1, Nat.le_refl _,
    fun _ hreader => ⟨hreader, Extends.refl _, id⟩⟩

theorem recoverOlder_keeps (hd : c.deployment = some d) (previous : PendingWalletSubmission) :
    Keeps c first n (Reading n r F) (recoverOlder c d r previous) := by
  refine recover_keeps ?_ fun _ => assertCurrent_keeps
  refine read_keeps.bind fun p => ?_
  refine Triple.ite (fun _ => ?_) fun _ => pure_keeps _
  refine (register_keeps hF previous).bind fun _ => Triple.ite (fun _ => ?_) fun _ => ?_
  · exact (request_keeps (Reading.stable hF) _).bind fun _ =>
      (ofExcept_keeps _).bind fun _ =>
      assertCurrent_keeps.bind fun _ =>
      settle_keeps hF hd previous _
  · exact (turn_runs (Reading.stable hF)).bind fun _ => assertCurrent_keeps

theorem recoverSaved_keeps (hd : c.deployment = some d) (pending : Option PendingWalletSubmission)
    (saved : List PendingWalletSubmission) :
    Keeps c first n (Reading n r F) (recoverSaved c d r pending saved) := by
  induction saved with
  | nil => exact pure_keeps _
  | cons previous rest ih =>
      refine Keeps.bind (P := Reading n r F) ?_ fun _ => ih
      exact Triple.ite (fun _ => pure_keeps _) fun _ => recoverOlder_keeps hF hd previous

/-- A presentation of a connected wallet may be published at any time. -/
theorem publishConnected_keeps {shown : Presentation} (hshows : ShowsConnected shown) :
    Keeps c first n (Reading n r F) (publishRead r shown) :=
  (publishRead_runs hF shown).weaken (fun _ hp => ⟨hp, fun h => absurd hshows h⟩)
    (fun _ _ h => (h.2 hshows.not_revoked).mono fun _ hf => hf.1) fun _ hp => hp

/-- `Reading` is kept and what is to be shown is of a connected wallet. -/
abbrev Shows (n r : Nat) (F : Page → Prop) (shown : Option Presentation) (p : Page) : Prop :=
  Reading n r F p ∧ ∀ s ∈ shown, ShowsConnected s

theorem readDegraded_runs (session : WalletSession) (snapshot : RuntimeSnapshot)
    {shown : Presentation} (hshows : ShowsConnected shown) (evidence : OperationEvidence) :
    Runs c first n (Reading n r F) (readDegraded c d session snapshot shown evidence)
      (fun shown p => Reading n r F p ∧ ShowsConnected shown) (Reading n r F) := by
  refine Triple.ite (fun _ => ?_) fun _ => Triple.pure fun p hp => ⟨hp, hshows⟩
  refine (readLiveExitSnapshot_keeps (Reading.stable hF) d).bind fun _ => ?_
  refine Triple.bind (connectedPresentation_runs (Reading.stable hF) d session _) fun fresh => ?_
  refine Runs.of_fact fun hfresh => (turn_runs (Reading.stable hF)).bind fun _ => ?_
  exact Triple.pure fun p hp => ⟨hp, hfresh⟩

theorem observePending_runs (hd : c.deployment = some d) (session : WalletSession)
    (snapshot : RuntimeSnapshot) {shown : Presentation} (hshows : ShowsConnected shown)
    (pending : PendingWalletSubmission) :
    Runs c first n (Reading n r F) (observePending c d r session snapshot shown pending)
      (Shows n r F) (Reading n r F) := by
  refine Triple.ite (fun _ => ?_) fun _ => ?_
  · refine (request_keeps (Reading.stable hF) _).bind fun _ => (ofExcept_keeps _).bind fun _ => ?_
    refine assertCurrent_keeps.bind fun _ => (settle_keeps hF hd pending _).bind fun _ => ?_
    refine Triple.bind (readDegraded_runs hF session snapshot hshows _) fun fresh => ?_
    refine Runs.of_fact fun hfresh => Triple.pure fun p hp => ⟨hp, ?_⟩
    rintro _ ⟨rfl⟩
    exact hfresh
  · refine (publishConnected_keeps hF hshows).bind fun _ => Triple.pure fun p hp => ⟨hp, ?_⟩
    exact fun s hs => by cases hs

theorem showAmbiguous_runs {shown : Presentation} (hshows : ShowsConnected shown)
    (pending : PendingWalletSubmission) :
    Runs c first n (Reading n r F) (showAmbiguous r shown pending)
      (fun shown p => Reading n r F p ∧ ShowsConnected shown) (Reading n r F) := by
  have hambiguous : ShowsConnected
      { shown with transaction := submittedAs .submissionAmbiguous pending } := hshows
  refine read_keeps.bind fun p => ?_
  refine Triple.ite (fun _ => ?_) fun _ => Triple.pure fun p hp => ⟨hp, hshows⟩
  exact (publishConnected_keeps hF hambiguous).bind fun _ =>
    Triple.pure fun p hp => ⟨hp, hambiguous⟩

theorem showLive_runs (session : WalletSession) {shown : Presentation}
    (hshows : ShowsConnected shown) (pending : PendingWalletSubmission) :
    Runs c first n (Reading n r F) (showLive c d r session shown pending) (Shows n r F)
      (Reading n r F) := by
  refine assertCurrent_keeps.bind fun _ => ?_
  refine Triple.bind (showAmbiguous_runs hF hshows pending) fun shown => ?_
  refine Runs.of_fact fun hshows => ?_
  have hlive : Runs c first n (Reading n r F) (do
      let snapshot ← readLiveExitSnapshot c d
      let live ← connectedPresentation c d session snapshot
      turn
      let p ← Async.read
      return some { live with transaction := p.snapshot.transaction })
      (Shows n r F) (Reading n r F) := by
    refine (readLiveExitSnapshot_keeps (Reading.stable hF) d).bind fun _ => ?_
    refine Triple.bind (connectedPresentation_runs (Reading.stable hF) d session _) fun live => ?_
    refine Runs.of_fact fun hlive => (turn_runs (Reading.stable hF)).bind fun _ => ?_
    refine read_keeps.bind fun p => Triple.pure fun p hp => ⟨hp, ?_⟩
    rintro _ ⟨rfl⟩
    exact hlive
  refine Triple.recover hlive fun _ => assertCurrent_keeps.bind fun _ => ?_
  refine Triple.pure fun p hp => ⟨hp, ?_⟩
  rintro _ ⟨rfl⟩
  exact hshows

theorem showPending_runs (hd : c.deployment = some d) (session : WalletSession)
    (snapshot : RuntimeSnapshot) {shown : Presentation} (hshows : ShowsConnected shown)
    (pending : PendingWalletSubmission) :
    Runs c first n (Reading n r F) (showPending c d r session snapshot shown pending)
      (Shows n r F) (Reading n r F) := by
  have hregistered : Keeps c first n (Reading n r F)
      (Async.recover (do register c r pending; return true) fun _ => return false) :=
    recover_keeps ((register_keeps hF pending).bind fun _ => pure_keeps _) fun _ => pure_keeps _
  have hsubmitted : ShowsConnected { shown with transaction := submittedAs .submitted pending } :=
    hshows
  refine hregistered.bind fun registered => Triple.ite (fun _ => ?_) fun _ => ?_
  · exact Triple.recover (observePending_runs hF hd session snapshot hsubmitted pending)
      fun _ => showLive_runs hF session hsubmitted pending
  · exact showLive_runs hF session hshows pending

omit hF in
theorem restore_untouched (account : Address) (restored : Option PendingWalletSubmission)
    (p : Page) : Untouched p (restore account restored p) := by
  have hsame : Untouched p p :=
    ⟨rfl, rfl, rfl, rfl, Or.inl rfl, rfl, rfl, fun _ he => he, fun _ he => he⟩
  unfold restore
  split
  · split
    · exact ⟨rfl, rfl, rfl, rfl, Or.inl rfl, rfl, rfl, fun _ he => he, fun _ he => he⟩
    · exact hsame
  · exact hsame

theorem refreshVault_keeps (hd : c.deployment = some d) (session : WalletSession) :
    Keeps c first n (Reading n r F) (refreshVault c d r session) := by
  have hstable := Reading.stable (n := n) (r := r) hF
  refine (readFlowSnapshot_keeps hstable d session.account).bind fun snapshot => ?_
  refine assertCurrent_keeps.bind fun _ => ?_
  refine Triple.bind (connectedPresentation_runs hstable d session snapshot) fun shown => ?_
  refine Runs.of_fact fun hshows => (turn_runs hstable).bind fun _ => ?_
  refine assertCurrent_keeps.bind fun _ => read_keeps.bind fun _ => ?_
  refine (journaled_runs.post fun _ _ h => h.1).bind fun saved => ?_
  refine (modify_untouched hstable (restore_untouched session.account _)).bind fun _ => ?_
  refine read_keeps.bind fun p => ?_
  refine (recoverSaved_keeps hF hd p.pendingOperation saved).bind fun _ => ?_
  cases p.pendingOperation with
  | none => exact publishConnected_keeps hF hshows
  | some pending =>
      refine Triple.ite (fun _ => ?_) fun _ => publishConnected_keeps hF hshows
      refine Triple.bind (showPending_runs hF hd session snapshot hshows pending) fun shown => ?_
      refine Runs.of_fact fun hshown => ?_
      cases shown with
      | some shown => exact publishConnected_keeps hF (hshown shown rfl)
      | none => exact pure_keeps _

end Vault

/-- Of a part that failed only the revision is of use. -/
theorem reading_runs {α : Type} {x : Runtime α} (h : Keeps c first n (Reading n r F) x) :
    Runs c first n (Reading n r F) x (fun _ => Reading n r F) (fun p => r ≤ p.readRevision) :=
  h.weaken (fun _ hp => hp) (fun _ _ hp => hp) fun _ hp => hp.begun

/-- A revoked state may be published at any time. -/
theorem publishRevoked_runs (hF : Lasting F) {shown : Presentation} (hrevoked : Revoked shown) :
    Runs c first n (Reading n r F) (publishRead r shown) (fun _ p => r ≤ p.readRevision)
      (fun p => r ≤ p.readRevision) :=
  (publishRead_runs hF shown).weaken (fun _ hp => ⟨hp, fun _ _ => guarded_of_revoked hrevoked⟩)
    (fun _ _ h => h.1) fun _ h => h.begun

theorem closed_revoked {wallet : WalletPresentation} {network : NetworkPresentation}
    {transaction : TransactionPresentation} {onchain : OnchainPresentation}
    (h : wallet.status = .disconnected ∨ wallet.status = .accountChanged ∨
      (network.status = .wrong ∧ wallet.status ≠ .connecting)) (balance : Option Nat) :
    Revoked ⟨wallet, network, transaction,
      { closed onchain with passBalanceBaseUnits := balance }⟩ := by
  refine ⟨?_, h⟩
  rintro (hwrites | hwrites)
  · exact hwrites rfl
  · exact hwrites rfl

theorem forget_session_keeps (hP : Stable n P) :
    Keeps c first n P (Async.modify fun p => { p with session := none }) :=
  modify_untouched hP fun _ =>
    ⟨rfl, rfl, rfl, rfl, Or.inr rfl, rfl, rfl, fun _ he => he, fun _ he => he⟩

theorem showDisconnected_runs (hF : Lasting F) :
    Runs c first n (Reading n r F) (showDisconnected r) (fun _ p => r ≤ p.readRevision)
      (fun p => r ≤ p.readRevision) := by
  refine Triple.bind (reading_runs (forget_session_keeps (Reading.stable hF))) fun _ => ?_
  refine read_runs fun p hp => ?_
  exact (publishRevoked_runs hF (closed_revoked (Or.inl rfl) none)).pre fun _ h => h ▸ hp

theorem showAccountChanged_runs (hF : Lasting F) (observed : WalletSession) :
    Runs c first n (Reading n r F) (showAccountChanged r observed) (fun _ p => r ≤ p.readRevision)
      (fun p => r ≤ p.readRevision) := by
  refine Triple.bind (reading_runs (forget_session_keeps (Reading.stable hF))) fun _ => ?_
  refine read_runs fun p hp => ?_
  exact (publishRevoked_runs hF (closed_revoked (Or.inr (Or.inl rfl)) _)).pre fun _ h => h ▸ hp

theorem showWrongNetwork_runs (hF : Lasting F) (observed : WalletSession) :
    Runs c first n (Reading n r F) (showWrongNetwork r observed) (fun _ p => r ≤ p.readRevision)
      (fun p => r ≤ p.readRevision) := by
  have hwrong : (WalletStatus.connected = .disconnected ∨ WalletStatus.connected = .accountChanged ∨
      (NetworkStatus.wrong = .wrong ∧ WalletStatus.connected ≠ .connecting)) := by decide
  refine read_runs fun p hp => ?_
  exact (publishRevoked_runs hF (closed_revoked hwrong _)).pre fun _ h => h ▸ hp

theorem showWallet_keeps (hF : Lasting F) {observed : WalletSession}
    (hchain : observed.chainId = chainId) :
    Keeps c first n (Reading n r F) (showWallet c r observed) := by
  refine (readEthBalance_keeps (Reading.stable hF) observed).bind fun _ => ?_
  refine read_keeps.bind fun p => publishConnected_keeps hF ⟨rfl, ?_⟩
  exact if_pos hchain

theorem hideBalances_keeps (hP : Stable n P) :
    Keeps c first n P (Async.modify (publish .kept hideBalances)) :=
  modify_keeps hP (fun _ _ => publish_kept_guar rfl) fun _ _ => publish_kept_rely rfl

theorem refreshObserved_runs (hF : Lasting F) (observed : WalletSession) :
    Runs c first n (Reading n r F) (refreshObserved c r observed) (fun _ p => r ≤ p.readRevision)
      (fun p => r ≤ p.readRevision) := by
  refine read_runs fun p hp => Triple.pre (P := Reading n r F) ?_ fun _ h => h ▸ hp
  refine Triple.ite (fun _ => showAccountChanged_runs hF observed) fun _ => ?_
  refine Triple.ite (fun _ => showWrongNetwork_runs hF observed) fun hchain => ?_
  have hwallet : Keeps c first n (Reading n r F) (showWallet c r observed) :=
    showWallet_keeps hF (Decidable.not_not.mp hchain)
  cases hd : c.deployment with
  | none => exact (reading_runs hwallet).post fun _ _ h => h.begun
  | some d =>
      cases p.session with
      | none => exact (reading_runs hwallet).post fun _ _ h => h.begun
      | some session =>
          exact (reading_runs (refreshVault_keeps hF hd session)).post fun _ _ h => h.begun

theorem refresh_runs (r₀ : Nat) :
    Runs c first n (fun p => r₀ ≤ p.readRevision) (refresh c n) (fun _ p => r₀ < p.readRevision)
      (fun p => r₀ < p.readRevision) := by
  refine withSessionRead_runs fun r _ => Triple.ite (fun _ => ?_) fun _ =>
    Triple.pure fun p hp => hp.begun
  refine Triple.bind (reading_runs (hideBalances_keeps (Reading.stable lasting_true))) fun _ => ?_
  refine Triple.bind (reading_runs (observe_keeps (Reading.stable lasting_true))) fun observed => ?_
  refine Triple.bind ((observedBy_runs lasting_true observed).weaken (fun _ h => h)
    (fun _ _ h => h.mono fun _ _ => trivial) fun _ h => h.begun) fun _ => ?_
  refine Triple.bind (reading_runs (F := fun _ => True) assertCurrent_keeps) fun _ => ?_
  cases observed with
  | none => exact showDisconnected_runs lasting_true
  | some observed => exact refreshObserved_runs lasting_true observed

/-! ## `connect` -/

/-- A presentation that opens and closes nothing may be published again. -/
theorem publishAgain_runs (hF : Lasting F) {p : Page} (hp : Reading n r F p) {shown : Presentation}
    (hsame : authority shown = authority p.snapshot) :
    Runs c first n (· = p) (publishRead r shown) (fun _ p => r ≤ p.readRevision)
      (Reading n r F) :=
  (publishRead_runs hF shown).weaken (fun _ h => h ▸ ⟨hp, fun _ _ => guarded_of_same hsame⟩)
    (fun _ _ h => h.1) fun _ h => h

theorem connectWallet_runs (hF : Lasting F) :
    Runs c first n (Reading n r F) (connectWallet r)
      (fun _ => Reading n r fun p => F p ∧ Authorized p.shown) (Reading n r F) := by
  have hstable := Reading.stable (n := n) (r := r) hF
  refine (request_keeps hstable _).bind fun accounts => ?_
  refine (sessionOf_keeps hstable _).bind fun session => ?_
  refine Triple.bind (observedBy_runs hF session) fun _ => ?_
  cases session with
  | none => exact Triple.throw fun _ hp => hp.mono fun _ hf => hf.1
  | some session =>
      refine Triple.bind (ensure_runs.weaken (fun _ hp => hp) (fun _ _ hp => hp) fun _ hp =>
        hp.mono fun _ hf => hf.1) fun _ => Triple.pure fun p hp => ?_
      exact hp.1.mono fun _ hf => ⟨hf.1, hf.2 rfl⟩

theorem flowSession_untouched (session : Option WalletSession) (p : Page) :
    Untouched p { p with flowSession := session } :=
  ⟨rfl, rfl, rfl, rfl, Or.inl rfl, rfl, rfl, fun _ he => he, fun _ he => he⟩

theorem flowConnect_runs (hF : Lasting F) (d : Deployment) :
    Runs c first n (Reading n r F) (flowConnect c d r)
      (fun _ => Reading n r fun p => F p ∧ Authorized p.shown) (Reading n r F) := by
  have hauthorized := hF.and lasting_authorized
  have hkept : ∀ {α : Type} {x : Runtime α},
      Keeps c first n (Reading n r fun p => F p ∧ Authorized p.shown) x →
      Runs c first n (Reading n r fun p => F p ∧ Authorized p.shown) x
        (fun _ => Reading n r fun p => F p ∧ Authorized p.shown) (Reading n r F) :=
    fun h => h.weaken (fun _ hp => hp) (fun _ _ hp => hp) fun _ hp => hp.mono fun _ hf => hf.1
  have hstable := Reading.stable (n := n) (r := r) hauthorized
  refine (modify_untouched (Reading.stable hF) (flowSession_untouched none)).bind fun _ => ?_
  refine Triple.bind (connectWallet_runs hF) fun session => hkept ?_
  refine assertCurrent_keeps.bind fun _ => ?_
  refine (readFlowSnapshot_keeps hstable d session.account).bind fun snapshot => ?_
  refine assertCurrent_keeps.bind fun _ => ?_
  refine (modify_untouched hstable (flowSession_untouched (some session))).bind fun _ => ?_
  exact (turn_runs hstable).bind fun _ => pure_keeps _

/-- A session that was seen is taken over while the read is the current one. -/
theorem bindSession_runs (hF : Lasting F) (session : WalletSession) :
    Runs c first n
      (fun p => Reading n r (fun p => F p ∧ Authorized p.shown) p ∧ p.readRevision = r)
      (Async.modify (bindSession session)) (fun _ => Reading n r F) E := by
  refine Triple.modify fun p hp => ?_
  obtain ⟨hreading, hcurrent⟩ := hp
  obtain ⟨hreader, hsince, hf, hauthorized⟩ := hreading.current hcurrent
  refine ⟨⟨.kept rfl rfl, .bound hauthorized rfl rfl rfl rfl,
    fun hfit => ⟨hfit.flow, hfit.pass⟩⟩, hreading.begun, fun _ => ⟨hreader, hsince, ?_⟩⟩
  exact hF p _ hf (Extends.refl _) id

theorem restoreOrForget_untouched (account : Address) (restored : Option PendingWalletSubmission)
    (p : Page) : Untouched p (restoreOrForget account restored p) := by
  unfold restoreOrForget
  split
  · exact ⟨rfl, rfl, rfl, rfl, Or.inl rfl, rfl, rfl, fun _ he => he, fun _ he => he⟩
  · exact ⟨rfl, rfl, rfl, rfl, Or.inl rfl, rfl, rfl, fun _ he => he, fun _ he => he⟩

theorem connectVault_runs (hF : Lasting F) (d : Deployment) :
    Runs c first n (Reading n r F) (connectVault c d n r) (fun _ p => r ≤ p.readRevision)
      (Reading n r F) := by
  have hstable := Reading.stable (n := n) (r := r) hF
  refine Triple.bind (flowConnect_runs hF d) ?_
  rintro ⟨session, snapshot⟩
  refine Triple.bind (assertCurrent_runs fun _ hp => hp.mono fun _ hf => hf.1) fun _ => ?_
  refine Triple.bind (bindSession_runs hF session) fun _ => ?_
  refine Triple.bind (connectedPresentation_runs hstable d session snapshot) fun shown => ?_
  refine Runs.of_fact fun hshows => (turn_runs hstable).bind fun _ => ?_
  refine (publishConnected_keeps hF hshows).bind fun _ => read_keeps.bind fun _ => ?_
  refine (journaled_runs.post fun _ _ h => h.1).bind fun saved => ?_
  refine (modify_untouched hstable (restoreOrForget_untouched session.account _)).bind fun _ => ?_
  refine read_runs fun p hp => ?_
  cases p.pendingOperation with
  | none => exact publishAgain_runs hF hp rfl
  | some pending =>
      refine Triple.bind (publishAgain_runs hF hp rfl) fun _ => ?_
      -- the refresh has taken the revision, so that nothing is owed to this read any more
      refine Triple.bind ((refresh_runs r).weaken (fun _ h => h) (fun _ _ h => h)
        fun _ h => Reading.past h) fun _ => ?_
      exact (turn_runs (stable_lt n r)).post fun _ _ h => Nat.le_of_lt h

theorem connectPlain_runs (hF : Lasting F) :
    Runs c first n (Reading n r F) (connectPlain c r) (fun _ p => r ≤ p.readRevision)
      (Reading n r F) := by
  refine Triple.bind (connectWallet_runs hF) fun session => ?_
  refine Triple.bind (assertCurrent_runs fun _ hp => hp.mono fun _ hf => hf.1) fun _ => ?_
  refine Triple.bind (bindSession_runs hF session) fun _ => ?_
  refine (readEthBalance_keeps (Reading.stable hF) session).bind fun _ => ?_
  refine read_keeps.bind fun p => ?_
  exact (publishConnected_keeps hF ⟨rfl, rfl⟩).post fun _ _ h => h.begun

theorem connectFailed_runs (e : Failure) :
    Runs c first n (Reading n r fun p => ¬ Revoked p.snapshot) (connectFailed r e)
      (fun _ p => r ≤ p.readRevision) (fun p => r ≤ p.readRevision) := by
  have hF := lasting_unrevoked
  have hstable := Reading.stable (n := n) (r := r) hF
  refine Triple.bind (reading_runs assertCurrent_keeps) fun _ => ?_
  have hobserve : Keeps c first n (Reading n r fun p => ¬ Revoked p.snapshot)
      (Async.recover observe fun _ => return none) :=
    recover_keeps (observe_keeps hstable) fun _ => pure_keeps _
  refine Triple.bind (reading_runs hobserve) fun observed => ?_
  refine read_runs fun p hp => ?_
  refine Triple.bind (Q := fun _ p => r ≤ p.readRevision)
    ((publishRead_runs hF _).weaken ?_ (fun _ _ h => h.1) fun _ h => h.begun)
    fun _ => Triple.throw fun _ h => h
  rintro _ rfl
  refine ⟨hp, fun _ hcurrent => ⟨fun hgrants => ?_, fun _ _ => Or.inl (hp.current hcurrent).2.2⟩⟩
  rcases hgrants with hwrites | ⟨hconnected, _⟩
  · exact Or.inl (Or.inl hwrites)
  · dsimp only at hconnected
    split at hconnected
    · cases hconnected
    · cases hconnected

theorem connecting_unrevoked (p : Page) : ¬ Revoked (connecting p) := by
  rintro ⟨_, h | h | ⟨_, h⟩⟩
  · cases h
  · cases h
  · exact h rfl

theorem connecting_not_grants (p : Page) : ¬ Grants (connecting p) := by
  rintro ((h | h) | ⟨h, _⟩)
  · exact h rfl
  · exact h rfl
  · cases h

/-- Nothing is connected, and what may be written stays. -/
theorem guarded_of_onchain {p : Page} {shown : Presentation}
    (honchain : shown.onchain = p.snapshot.onchain) (hstatus : shown.wallet.status = .disconnected) :
    Guarded p shown := by
  have hwrites : writes shown → Grants p.snapshot := fun h => Or.inl (by rwa [writes, ← honchain])
  refine ⟨fun hgrants => ?_, fun _ hunrevoked => ?_⟩
  · rcases hgrants with h | ⟨hconnected, _⟩
    · exact Or.inl (hwrites h)
    · rw [hstatus] at hconnected
      cases hconnected
  · refine Or.inl fun hrevoked => hunrevoked ⟨fun h => ?_, Or.inl hstatus⟩
    exact hrevoked.not_grants (hwrites h)

theorem connectProvider_runs (x : Runtime Unit)
    (hx : Runs c first n (Reading n r fun p => ¬ Revoked p.snapshot) x
      (fun _ p => r ≤ p.readRevision) (Reading n r fun p => ¬ Revoked p.snapshot)) :
    Runs c first n (Reading n r fun _ => True) (do
        Async.modify fun p => { p with session := none }
        let p ← Async.read
        publishRead r (connecting p)
        Async.recover x (connectFailed r))
      (fun _ p => r ≤ p.readRevision) (fun p => r ≤ p.readRevision) := by
  have hforget : Runs c first n (Reading n r fun _ => True)
      (Async.modify fun p => { p with session := none })
      (fun _ p => Reading n r (fun _ => True) p ∧ p.session = none) (fun p => r ≤ p.readRevision) :=
    Triple.modify fun p hp =>
      have h : Untouched p { p with session := none } :=
        ⟨rfl, rfl, rfl, rfl, Or.inr rfl, rfl, rfl, fun _ he => he, fun _ he => he⟩
      ⟨h.guar, Reading.stable lasting_true _ _ hp h.rely, rfl⟩
  refine Triple.bind hforget fun _ => read_runs fun p hp => ?_
  refine Triple.bind ((publishRead_runs lasting_true (connecting p)).weaken (fun q hq => ?_)
    (fun _ _ h => h) fun _ h => h.begun) fun _ => ?_
  · subst hq
    refine ⟨hp.1, fun _ _ => ⟨fun h => absurd h (connecting_not_grants _), fun hsession => ?_⟩⟩
    rw [hp.2] at hsession
    cases hsession
  · refine Triple.recover (hx.pre fun q hq => ?_) connectFailed_runs
    exact (hq.2 (connecting_unrevoked p)).mono fun _ hf => hf.2

theorem connect_runs (r₀ : Nat) :
    Runs c first n (fun p => r₀ ≤ p.readRevision) (connect c n) (fun _ p => r₀ < p.readRevision)
      (fun p => r₀ < p.readRevision) := by
  refine withSessionRead_runs fun r _ => Triple.ite (fun _ => ?_) fun _ => ?_
  · refine connectProvider_runs _ ?_
    cases c.deployment with
    | none => exact connectPlain_runs lasting_unrevoked
    | some d => exact connectVault_runs lasting_unrevoked d
  · refine read_runs fun p hp => ?_
    refine Triple.bind (Q := fun _ p => r ≤ p.readRevision)
      ((publishRead_runs lasting_true _).weaken ?_ (fun _ _ h => h.1) fun _ h => h.begun)
      fun _ => Triple.throw fun _ h => h
    rintro _ rfl
    exact ⟨hp, fun _ _ => guarded_of_onchain rfl rfl⟩

end M3BrowserRuntime
end AlphaForge
