/-
Reviews and confirmations keep their promises.

What a confirmation knows of its own submission is a condition of the notes that only
its own steps can change: no submission yet, one that the journal has let through, one
that the wallet was asked for.  Everything else that it does leaves the notes alone.
-/
import AlphaForge.Client.M3BrowserRuntime.Calldata
import AlphaForge.Client.M3BrowserRuntime.Connected

namespace AlphaForge
namespace M3BrowserRuntime

open Evm Async
open M3SubmissionJournal (PendingWalletSubmission SubmissionStorage chainId)

/-! ## Conditions of the notes -/

/-- Only the call of this number can end it. -/
def Own (n : Nat) (A : List SendNote → Prop) : Prop :=
  ∀ log log', stage n log' = stage n log →
    (∀ s ∈ unresolved log', s.call = n → s ∈ unresolved log) → A log → A log'

theorem Own.stable {n : Nat} {A : List SendNote → Prop} (h : Own n A) :
    Stable n fun p => A p.sends :=
  fun _ _ hp hR => h _ _ hR.stage hR.unresolved hp

def Fresh (n : Nat) (log : List SendNote) : Prop :=
  stage n log = .idle ∧ ∀ s ∈ unresolved log, s.call ≠ n

/-- The journal has let it through. -/
def Ready (n : Nat) (prepared : PreparedAction) (log : List SendNote) : Prop :=
  stage n log = .ready prepared.intent ∧ ∀ s ∈ unresolved log, s.call ≠ n

/-- Nothing else was asked for by this call. -/
def Asked (n : Nat) (prepared : PreparedAction) (log : List SendNote) : Prop :=
  ∀ s ∈ unresolved log, s.call = n → s = ⟨n, prepared.operationId, prepared.intent⟩

variable {n : Nat} {prepared : PreparedAction}

theorem own_true (n : Nat) : Own n fun _ => True := fun _ _ _ _ _ => trivial

theorem own_fresh (n : Nat) : Own n (Fresh n) :=
  fun _ _ hstage hunresolved h =>
    ⟨hstage.trans h.1, fun s hs hcall => h.2 s (hunresolved s hs hcall) hcall⟩

theorem own_ready : Own n (Ready n prepared) :=
  fun _ _ hstage hunresolved h =>
    ⟨hstage.trans h.1, fun s hs hcall => h.2 s (hunresolved s hs hcall) hcall⟩

theorem own_asked : Own n (Asked n prepared) :=
  fun _ _ _ hunresolved h s hs hcall => h s (hunresolved s hs hcall) hcall

section Programs

variable {c : Options} {first : SubmissionStorage} {A : List SendNote → Prop} {α : Type}
  {P : Page → Prop} {Q : α → Page → Prop} {E : Page → Prop}

/-- A program of the call with this number that keeps a condition of the notes. -/
abbrev Leaves (c : Options) (first : SubmissionStorage) (n : Nat) (A : List SendNote → Prop)
    (x : Runtime α) : Prop :=
  Keeps c first n (fun p => A p.sends) x

/-- What a failed part knew is not needed. -/
theorem Leaves.runs {x : Runtime α} (h : Leaves c first n A x) :
    Runs c first n (fun p => A p.sends) x (fun _ p => A p.sends) (fun _ => True) :=
  h.weaken (fun _ hp => hp) (fun _ _ hp => hp) fun _ _ => trivial

theorem modify_leaves {f : Page → Page} (hG : ∀ p, Guar c n p (f p))
    (hsends : ∀ p, (f p).sends = p.sends) : Leaves c first n A (Async.modify f) :=
  Triple.modify fun p hp => ⟨hG p, by rw [hsends]; exact hp⟩

theorem untouched_leaves {f : Page → Page} (h : ∀ p, Untouched p (f p)) :
    Leaves c first n A (Async.modify f) :=
  modify_leaves (fun p => (h p).guar) fun p => (h p).sends

theorem publishTransaction_leaves (transaction : TransactionPresentation) :
    Leaves c first n A (Async.modify (publishTransaction transaction)) :=
  modify_leaves (fun _ => publish_kept_guar rfl) fun _ => rfl

theorem publishTransaction_keeps (transaction : TransactionPresentation) :
    Keeps c first n (fun _ => True) (Async.modify (publishTransaction transaction)) :=
  modify_keeps (stable_true n) (fun _ _ => publish_kept_guar rfl) fun _ _ => publish_kept_rely rfl

theorem publishSubmission_keeps (submission : WalletSubmission) :
    Keeps c first n (fun _ => True) (publishSubmission submission) := by
  cases submission with
  | submitted txHash => exact publishTransaction_keeps _
  | submissionAmbiguous txHash reason => exact publishTransaction_keeps _

theorem answered_guar {p : Page} {entry : SendNote}
    (h : entry = .rejected n ∨ entry = .unknown n ∨ entry = .unrecorded n ∨ entry = .ended n) :
    Guar c n p (note entry p) :=
  ⟨.answered entry h rfl rfl, .kept rfl rfl (Or.inl rfl) rfl rfl,
    fun hfit => ⟨hfit.flow, hfit.pass⟩⟩

/-- Whatever is noted of its answer, the submission is the same. -/
theorem answered_runs {entry : SendNote}
    (h : entry = .rejected n ∨ entry = .unknown n ∨ entry = .unrecorded n ∨ entry = .ended n) :
    Leaves c first n (fun _ => True) (Async.modify (note entry)) :=
  Triple.modify fun _ _ => ⟨answered_guar h, trivial⟩

/-- With the invariant before, there is the invariant after. -/
theorem Runs.invariant {x : Runtime α} (h : Runs c first n P x Q E) :
    Runs c first n (fun p => P p ∧ Inv c first p) x (fun a p => Q a p ∧ Inv c first p)
      (fun p => E p ∧ Inv c first p) :=
  Triple.invariant (fun _ _ hI hG => hG.kept hI) h

theorem Leaves.known {x : Runtime α} (h : Leaves c first n A x) :
    Runs c first n (fun p => A p.sends ∧ Inv c first p) x
      (fun _ p => A p.sends ∧ Inv c first p) (fun _ => True) :=
  (Runs.invariant h).weaken (fun _ hp => hp) (fun _ _ hp => hp) fun _ _ => trivial

/-! ## `submit` -/

theorem checkSession_keeps (before : Nat) (current : Option WalletSession) :
    Keeps c first n P (checkSession prepared before current) :=
  require_keeps.bind fun _ => ensure_keeps.bind fun _ => ensure_keeps.bind fun _ =>
    read_keeps.bind fun _ => ensure_keeps

theorem sessionMatches_keeps (hP : Stable n P) (before : Nat) :
    Keeps c first n P (sessionMatches prepared before) :=
  recover_keeps ((observe_keeps hP).bind fun _ => read_keeps.bind fun _ => pure_keeps _)
    fun _ => pure_keeps _

theorem afterHash_keeps (hP : Stable n P) (before : Nat) (txHash : Bytes32) :
    Keeps c first n P (afterHash prepared before txHash) := by
  refine (input_keeps _).bind fun (timed : Bool) => Triple.ite (fun _ => pure_keeps _) fun _ => ?_
  refine (sessionMatches_keeps hP before).bind fun _ => ?_
  refine Triple.ite (fun _ => pure_keeps _) fun _ => read_keeps.bind fun _ => ?_
  exact Triple.ite (fun _ => pure_keeps _) fun _ => pure_keeps _

/-- The wallet is asked where `A` holds, and `B` holds while it may still take effect. -/
theorem submit_runs {B : List SendNote → Prop} {noted : Bool} {target : Address} (hA : Own n A)
    (hB : Own n B)
    (hasked : Runs c first n (fun p => A p.sends)
      (noteIf noted (.asked n prepared.operationId prepared.intent)) (fun _ p => B p.sends)
      fun _ => True)
    (hanswered : ∀ entry, entry = .rejected n ∨ entry = .unknown n →
      Leaves c first n (fun _ => True) (noteIf noted entry)) :
    Runs c first n (fun p => A p.sends) (submit n noted target prepared)
      (fun submission p => submission.txHash.isSome = true → B p.sends) (fun _ => True) := by
  refine Triple.bind (Leaves.runs ensure_keeps) fun _ => ?_
  refine Triple.bind (Leaves.runs read_keeps) fun p => ?_
  refine Triple.bind (Leaves.runs (input_keeps _)) fun (listening : Bool) => ?_
  refine Triple.bind (Leaves.runs ensure_keeps) fun _ => ?_
  refine Triple.bind (Leaves.runs (observe_keeps hA.stable)) fun observed => ?_
  refine Triple.bind (Leaves.runs (checkSession_keeps _ observed)) fun _ => ?_
  refine Triple.bind (Leaves.runs (request_keeps hA.stable _)) fun (simulated : Bool) => ?_
  refine Triple.bind (Leaves.runs ensure_keeps) fun _ => ?_
  refine Triple.bind (Leaves.runs (observe_keeps hA.stable)) fun observed => ?_
  refine Triple.bind (Leaves.runs (checkSession_keeps _ observed)) fun _ => ?_
  refine Triple.bind (Leaves.runs (input_keeps _)) fun (ready : Bool) => ?_
  refine Triple.bind (Leaves.runs ensure_keeps) fun _ => ?_
  refine Triple.bind (Leaves.runs (publishTransaction_leaves _)) fun _ => ?_
  refine Triple.bind hasked fun _ => ?_
  refine Triple.bind (Leaves.runs (request_keeps hB.stable _)) fun answer => ?_
  cases answer with
  | hash txHash =>
      exact (Leaves.runs (afterHash_keeps hB.stable _ txHash)).post fun _ _ hp _ => hp
  | rejected =>
      have hnoted := Leaves.runs (hanswered _ (Or.inl rfl))
      refine Triple.bind (hnoted.pre fun _ _ => trivial) fun _ => ?_
      exact Triple.throw fun _ hp => hp
  | unknown =>
      have hnoted := Leaves.runs (hanswered _ (Or.inr rfl))
      refine Triple.bind (hnoted.pre fun _ _ => trivial) fun _ => ?_
      exact Triple.pure fun _ _ h => by cases h

/-- A submission that is not noted leaves the notes alone. -/
theorem submitPlain_runs {target : Address} :
    Runs c first n (fun _ => True) (submit n false target prepared) (fun _ _ => True)
      (fun _ => True) :=
  (submit_runs (own_true n) (own_true n) (pure_keeps _) fun _ _ => pure_keeps _).post
    fun _ _ _ => trivial

theorem asked_runs :
    Runs c first n (fun p => Ready n prepared p.sends)
      (noteIf true (.asked n prepared.operationId prepared.intent))
      (fun _ p => Asked n prepared p.sends) E := by
  refine Triple.modify fun p hp => ⟨⟨?_, .kept rfl rfl (Or.inl rfl) rfl rfl,
    fun hfit => ⟨hfit.flow, hfit.pass⟩⟩, fun s hs hcall => ?_⟩
  · exact .asked prepared.operationId prepared.intent hp.1 rfl rfl
  · rcases List.mem_cons.mp hs with rfl | hs
    · rfl
    · exact absurd hcall (hp.2 s hs)

theorem submitNoted_runs {target : Address} :
    Runs c first n (fun p => Ready n prepared p.sends) (submit n true target prepared)
      (fun submission p => submission.txHash.isSome = true → Asked n prepared p.sends)
      (fun _ => True) := by
  refine submit_runs own_ready own_asked asked_runs fun entry hentry => ?_
  exact answered_runs (hentry.imp id Or.inl)

/-! ## The journal -/

section Journal

variable {d : Deployment} (hd : c.deployment = some d)
include hd

theorem assertWritable_runs :
    Runs c first n (fun p => Fresh n p.sends) (assertWritable d n prepared)
      (fun _ p => Ready n prepared p.sends) (fun _ => True) := by
  have hcontext : context c = d.context := by rw [context, hd]
  refine read_runs fun p hp => ?_
  refine Triple.bind (journaled_runs.weaken (fun _ h => h) (fun _ _ h => h) fun _ _ => trivial)
    fun storage => Runs.of_fact fun hwritable => Triple.modify ?_
  rintro _ rfl
  obtain ⟨pending, hread, hother, hstorage⟩ := M3SubmissionJournal.assertWritable_spec hwritable
  rw [← hcontext] at hread
  refine ⟨⟨.checked prepared.intent pending hp.2 hread hother rfl
    ⟨M3SubmissionJournal.read_acceptable hread, hstorage⟩, .kept rfl rfl (Or.inl rfl) rfl rfl,
    fun hfit => ⟨hfit.flow, hfit.pass⟩⟩, if_pos rfl, hp.2⟩

theorem recordSubmission_runs (hfit : Fit c prepared) (txHash : Bytes32) :
    Runs c first n (fun p => Asked n prepared p.sends)
      (recordSubmission d n (entryOf prepared txHash)) (fun _ _ => True) (fun _ => True) := by
  have hcontext : context c = d.context := by rw [context, hd]
  refine read_runs fun p hp => ?_
  cases hrecord : M3SubmissionJournal.record d.context (entryOf prepared txHash) p.storage with
  | error e =>
      refine Triple.bind ((Leaves.runs (answered_runs (Or.inr (Or.inr (Or.inl rfl))))).pre
        fun _ _ => trivial) fun _ => ?_
      exact Triple.throw fun _ hq => hq
  | ok storage =>
      refine Triple.modify ?_
      rintro _ rfl
      rw [← hcontext] at hrecord
      obtain ⟨previous, entries, hread, hentries, hentry, hlonger, _, hstorage⟩ :=
        M3SubmissionJournal.record_spec (hfit txHash) hrecord
      exact ⟨⟨.recorded (entryOf prepared txHash) previous entries hp hread hlonger hentry rfl
        ⟨hentries, hstorage⟩, .kept rfl rfl (Or.inl rfl) rfl rfl,
        fun hfit => ⟨hfit.flow, hfit.pass⟩⟩, trivial⟩

end Journal

theorem registerSubmitted_keeps (input : PendingWalletSubmission) :
    Keeps c first n (fun _ => True) (registerSubmitted c input) := by
  refine ensure_keeps.bind fun _ => (request_keeps (stable_true n) _).bind
    fun (registered : Bool) => ensure_keeps.bind fun _ => ?_
  exact modify_untouched (stable_true n) fun _ =>
    ⟨rfl, rfl, rfl, rfl, Or.inl rfl, rfl, rfl, fun _ he => he, fun _ he => he⟩

theorem retainSubmission_runs {d : Deployment} (hd : c.deployment = some d) (hfit : Fit c prepared)
    (submission : WalletSubmission) :
    Runs c first n (fun p => submission.txHash.isSome = true → Asked n prepared p.sends)
      (retainSubmission c d n prepared submission) (fun _ _ => True) (fun _ => True) := by
  rw [retainSubmission]
  cases hhash : submission.txHash with
  | none => exact Triple.pure fun _ _ => trivial
  | some txHash =>
      refine Triple.pre (P := fun p => Asked n prepared p.sends) ?_ fun _ hp => hp rfl
      have hpending : Leaves c first n (Asked n prepared)
          (Async.modify fun p => { p with pendingOperation := some (entryOf prepared txHash) }) :=
        untouched_leaves fun _ =>
          ⟨rfl, rfl, rfl, rfl, Or.inl rfl, rfl, rfl, fun _ he => he, fun _ he => he⟩
      refine Triple.bind (Leaves.runs hpending) fun _ => ?_
      refine Triple.recover ?_ fun _ => pure_keeps _
      refine Triple.bind (recordSubmission_runs hd hfit txHash) fun _ => ?_
      cases submission with
      | submitted _ => exact (registerSubmitted_keeps _).bind fun _ => pure_keeps _
      | submissionAmbiguous _ _ => exact pure_keeps _

/-- A confirmation that has not asked for anything yet asks for one submission at most. -/
theorem submitJournaled_runs {d : Deployment} (hd : c.deployment = some d) (hfit : Fit c prepared)
    (target : Address) :
    Runs c first n (fun p => Fresh n p.sends) (submitJournaled c d n target prepared)
      (fun _ _ => True) (fun _ => True) := by
  refine Triple.bind (assertWritable_runs hd) fun _ => ?_
  have hended : ∀ p : Page, True → Guar c n p (note (.ended n) p) ∧ True := fun p _ =>
    ⟨answered_guar (Or.inr (Or.inr (Or.inr rfl))), trivial⟩
  have hbody : Runs c first n (fun p => Ready n prepared p.sends) (do
        let submission ← submit n true target prepared
        turn
        retainSubmission c d n prepared submission)
      (fun _ _ => True) (fun _ => True) := by
    refine Triple.bind submitNoted_runs fun submission => ?_
    have hstable : Stable n fun p => submission.txHash.isSome = true → Asked n prepared p.sends :=
      fun p p' hp hR hhash => own_asked.stable p p' (hp hhash) hR
    exact Triple.bind (turn_runs hstable) fun _ => retainSubmission_runs hd hfit submission
  exact Triple.finally_ (hbody.weaken (fun _ h => h) (fun _ => hended) hended)

/-! ## Reviews -/

theorem simulateAction_keeps (hP : Stable n P) (owner : Address) (snapshot : RuntimeSnapshot) :
    Keeps c first n P (simulateAction owner snapshot prepared) :=
  ensure_keeps.bind fun _ => ensure_keeps.bind fun _ => ensure_keeps.bind fun _ =>
    ensure_keeps.bind fun _ => (request_keeps hP _).bind fun (_ : Bool) => ensure_keeps

theorem operationId_keeps (kind : String) : Keeps c first n P (operationId kind) :=
  (input_keeps _).bind fun (_ : Option String) => require_keeps.bind fun _ =>
    ensure_keeps.bind fun _ => pure_keeps _

/-- A review of a deposit shows a connected wallet. -/
theorem showDeposit_keeps (d : Deployment) (session : WalletSession) (snapshot : VaultSnapshot)
    (allowed : DepositAuthorization) :
    Keeps c first n (fun _ => True) (showDeposit c d session snapshot allowed) := by
  refine Triple.modify fun p _ =>
    ⟨⟨.kept rfl rfl, ?_, fun hfit => ⟨hfit.flow, hfit.pass⟩⟩, trivial⟩
  exact .published .review rfl rfl rfl rfl (fun h => by cases h)
    (fun _ => ShowsConnected.not_revoked ⟨rfl, rfl⟩) fun h => by cases h

/-! ## Calls -/

section Calls

variable {d : Deployment}

theorem approvalReviews_untouched (f : Page → OrderedMap Nat DepositAuthorization) (p : Page) :
    Untouched p { p with approvalReviews := f p } :=
  ⟨rfl, rfl, rfl, rfl, Or.inl rfl, rfl, rfl, fun _ he => he, fun _ he => he⟩

theorem reviewDepositApprovals_keeps (usdcBaseUnits : String) :
    Keeps c first n (fun _ => True) (reviewDepositApprovals c d n usdcBaseUnits) := by
  have hstable := stable_true n
  refine read_keeps.bind fun _ => require_keeps.bind fun session => ?_
  refine (assertRuntimeCode_keeps hstable _ _).bind fun _ => ?_
  refine (assertRuntimeCode_keeps hstable _ _).bind fun _ => ?_
  refine (readCanonicalSnapshot_keeps hstable d _).bind fun snapshot => ?_
  refine (authorization_keeps hstable d session _).bind fun allowed => ?_
  refine (showDeposit_keeps d session snapshot allowed).bind fun _ => ?_
  exact modify_untouched hstable
    (approvalReviews_untouched fun p => p.approvalReviews.set n allowed)

theorem assertApprovalCode_keeps (kind : ApprovalKind) :
    Keeps c first n (fun _ => True) (assertApprovalCode c d kind) := by
  have hstable := stable_true n
  cases kind with
  | afUsdc => exact assertRuntimeCode_keeps hstable _ _
  | pass =>
      exact (assertRuntimeCode_keeps hstable _ _).bind fun _ =>
        assertRuntimeCode_keeps hstable _ _

theorem confirmDepositApproval_keeps (review : Nat) (kind : ApprovalKind) :
    Keeps c first n (fun _ => True) (confirmDepositApproval c d n review kind) := by
  have hstable := stable_true n
  refine ensure_keeps.bind fun _ => ?_
  refine read_keeps.bind fun _ => require_keeps.bind fun allowed => ?_
  refine (modify_untouched hstable (approvalReviews_untouched fun p =>
    p.approvalReviews.filter (·.1 ≠ review))).bind fun _ => ?_
  refine ensure_keeps.bind fun _ => ?_
  refine (assertApprovalCode_keeps kind).bind fun _ => ?_
  refine (operationId_keeps kind.text).bind fun id => ?_
  generalize prepare id allowed.owner (approvalOf kind allowed).token
    (.ok (approveCalldata (approvalOf kind allowed).spender
      (approvalOf kind allowed).required)) = encoded
  refine (ofExcept_keeps encoded).bind fun prepared => ?_
  refine Keeps.bind submitPlain_runs fun submission => ?_
  refine (turn_runs hstable).bind fun _ => ?_
  exact publishSubmission_keeps submission

/-- A review that the journal may keep is put aside. -/
theorem flowReviews_guar (hfit : Fit c prepared) (p : Page) :
    Guar c n p { p with flowReviews := p.flowReviews.set n prepared } := by
  refine ⟨.kept rfl rfl, .kept rfl rfl (Or.inl rfl) rfl rfl, fun h => ⟨fun e he => ?_, h.pass⟩⟩
  rcases OrderedMap.mem_of_mem_set he with rfl | he
  · exact hfit
  · exact h.flow e he

theorem flowReview_keeps (hd : c.deployment = some d) (request : ProductActionRequest) :
    Keeps c first n (fun _ => True) (flowReview c d n request) := by
  have hstable := stable_true n
  refine read_keeps.bind fun _ => require_keeps.bind fun session => ?_
  refine (readFlowSnapshot_keeps hstable d _).bind fun snapshot => ?_
  refine (operationId_keeps _).bind fun id => ?_
  refine Triple.bind ofExcept_runs fun prepared => Runs.of_fact fun hprepared => ?_
  refine (turn_runs hstable).bind fun _ => ensure_keeps.bind fun _ => ?_
  refine (simulateAction_keeps hstable _ _).bind fun _ => ?_
  exact Triple.modify fun p _ => ⟨flowReviews_guar (vault_fit hd hprepared) p, trivial⟩

theorem reviewDeposit_keeps (usdcBaseUnits : String) :
    Keeps c first n (fun _ => True) (reviewDeposit c d usdcBaseUnits) := by
  have hstable := stable_true n
  refine read_keeps.bind fun _ => require_keeps.bind fun session => ?_
  refine (readCanonicalSnapshot_keeps hstable d _).bind fun snapshot => ?_
  refine read_keeps.bind fun _ => require_keeps.bind fun session => ?_
  refine (authorization_keeps hstable d session _).bind fun allowed => ?_
  refine read_keeps.bind fun _ => require_keeps.bind fun session => ?_
  refine (showDeposit_keeps d session snapshot allowed).bind fun _ => ensure_keeps

theorem reviewAuthorization_keeps (request : ProductActionRequest) :
    Keeps c first n (fun _ => True) (reviewAuthorization c d request) := by
  cases request with
  | deposit usdcBaseUnits => exact reviewDeposit_keeps usdcBaseUnits
  | _ => exact pure_keeps _

theorem reviewAction_keeps (hd : c.deployment = some d) (request : ProductActionRequest) :
    Keeps c first n (fun _ => True) (reviewAction c d n request) := by
  have hstable := stable_true n
  refine read_keeps.bind fun _ => ensure_keeps.bind fun _ => ?_
  refine (assertRuntimeCode_keeps hstable _ _).bind fun _ => ?_
  refine (reviewAuthorization_keeps request).bind fun _ => ?_
  refine (publishTransaction_keeps _).bind fun _ => ?_
  refine (flowReview_keeps hd request).bind fun _ => (turn_runs hstable).bind fun _ => ?_
  exact modify_untouched hstable fun _ =>
    ⟨rfl, rfl, rfl, rfl, Or.inl rfl, rfl, rfl, fun _ he => he, fun _ he => he⟩

theorem passTransferReviews_guar (hfit : Fit c prepared) (p : Page) :
    Guar c n p { p with passTransferReviews := p.passTransferReviews.set n prepared } := by
  refine ⟨.kept rfl rfl, .kept rfl rfl (Or.inl rfl) rfl rfl, fun h => ⟨h.flow, fun e he => ?_⟩⟩
  rcases OrderedMap.mem_of_mem_set he with rfl | he
  · exact hfit
  · exact h.pass e he

theorem reviewPassTransfer_keeps (hd : c.deployment = some d) (request : PassTransferRequest) :
    Keeps c first n (fun _ => True) (reviewPassTransfer c d n request) := by
  have hstable := stable_true n
  refine read_keeps.bind fun _ => require_keeps.bind fun session => ensure_keeps.bind fun _ => ?_
  refine (observe_keeps hstable).bind fun _ => ensure_keeps.bind fun _ => ?_
  refine (assertRuntimeCode_keeps hstable _ _).bind fun _ => ?_
  refine (readFlowSnapshot_keeps hstable d _).bind fun _ => ?_
  refine (operationId_keeps _).bind fun id => ?_
  refine Triple.bind ofExcept_runs fun prepared => Runs.of_fact fun hprepared => ?_
  refine (request_keeps hstable _).bind fun (_ : Bool) => ensure_keeps.bind fun _ => ?_
  refine (observe_keeps hstable).bind fun _ => ensure_keeps.bind fun _ => ?_
  refine Triple.bind (Q := fun _ _ => True) (Triple.modify fun p _ =>
    ⟨passTransferReviews_guar (pass_fit hd hprepared) p, trivial⟩) fun _ => ?_
  exact publishTransaction_keeps _

theorem flowReviews_untouched (review : Nat) (p : Page) :
    Untouched p { p with flowReviews := p.flowReviews.filter (·.1 ≠ review) } :=
  ⟨rfl, rfl, rfl, rfl, Or.inl rfl, rfl, rfl, fun _ he => (List.mem_filter.mp he).1,
    fun _ he => he⟩

theorem passTransferReviews_untouched (review : Nat) (p : Page) :
    Untouched p { p with passTransferReviews := p.passTransferReviews.filter (·.1 ≠ review) } :=
  ⟨rfl, rfl, rfl, rfl, Or.inl rfl, rfl, rfl, fun _ he => he,
    fun _ he => (List.mem_filter.mp he).1⟩

/-- What was reviewed is what is asked for, and the journal may keep it. -/
theorem flowConfirm_runs (hd : c.deployment = some d) (review : Nat) :
    Runs c first n (fun p => Fresh n p.sends ∧ Inv c first p) (flowConfirm c d n review)
      (fun _ _ => True) (fun _ => True) := by
  have hstable := (own_fresh n).stable
  refine read_runs fun p hp => ?_
  refine Triple.bind (require_runs.weaken (fun _ h => h) (fun _ _ h => h) fun _ _ => trivial)
    fun prepared => Runs.of_fact fun hreview => ?_
  have hfit : Fit c prepared := hp.2.reviews.flow _ (OrderedMap.mem_of_get? hreview)
  refine Triple.pre (P := fun p => Fresh n p.sends) ?_ fun _ h => h ▸ hp.1
  refine Triple.bind (Leaves.runs (untouched_leaves (flowReviews_untouched review))) fun _ => ?_
  refine Triple.bind (Leaves.runs read_keeps) fun p => ?_
  refine Triple.bind (Leaves.runs require_keeps) fun session => ?_
  refine Triple.bind (Leaves.runs ensure_keeps) fun _ => ?_
  refine Triple.bind (Leaves.runs (readFlowSnapshot_keeps hstable d _)) fun snapshot => ?_
  refine Triple.bind (Leaves.runs (simulateAction_keeps hstable _ _)) fun _ => ?_
  refine Triple.bind (turn_runs hstable) fun _ => ?_
  exact submitJournaled_runs hd hfit d.vaultAddress

theorem actionReviews_untouched (review : Nat) (p : Page) :
    Untouched p { p with actionReviews := p.actionReviews.filter (· ≠ review) } :=
  ⟨rfl, rfl, rfl, rfl, Or.inl rfl, rfl, rfl, fun _ he => he, fun _ he => he⟩

theorem confirmAction_runs (hd : c.deployment = some d) (review : Nat) :
    Runs c first n (fun p => Fresh n p.sends ∧ Inv c first p) (confirmAction c d n review)
      (fun _ _ => True) (fun _ => True) := by
  have hstable := (own_fresh n).stable
  refine Triple.bind (Leaves.known ensure_keeps) fun _ => ?_
  refine Triple.bind (Leaves.known read_keeps) fun p => ?_
  refine Triple.bind (Leaves.known ensure_keeps) fun _ => ?_
  refine Triple.bind (Leaves.known (untouched_leaves (actionReviews_untouched review))) fun _ => ?_
  refine Triple.bind (Leaves.known (assertRuntimeCode_keeps hstable _ _)) fun _ => ?_
  refine Triple.bind (flowConfirm_runs hd review) fun submission => ?_
  refine Triple.bind (turn_runs (stable_true n)) fun _ => ?_
  exact publishSubmission_keeps submission

theorem confirmPassTransfer_runs (hd : c.deployment = some d) (review : Nat) :
    Runs c first n (fun p => Fresh n p.sends ∧ Inv c first p) (confirmPassTransfer c d n review)
      (fun _ _ => True) (fun _ => True) := by
  have hstable := (own_fresh n).stable
  refine read_runs fun p hp => ?_
  refine Triple.bind (require_runs.weaken (fun _ h => h) (fun _ _ h => h) fun _ _ => trivial)
    fun prepared => Runs.of_fact fun hreview => ?_
  have hfit : Fit c prepared := hp.2.reviews.pass _ (OrderedMap.mem_of_get? hreview)
  refine Triple.pre (P := fun p => Fresh n p.sends) ?_ fun _ h => h ▸ hp.1
  refine Triple.bind (Leaves.runs (untouched_leaves (passTransferReviews_untouched review)))
    fun _ => ?_
  refine Triple.bind (Leaves.runs (assertRuntimeCode_keeps hstable _ _)) fun _ => ?_
  refine Triple.bind (submitJournaled_runs hd hfit d.strategyPassAddress) fun submission => ?_
  refine Triple.bind (turn_runs (stable_true n)) fun _ => ?_
  exact publishSubmission_keeps submission

theorem invalidateEach_keeps (revisions : List Nat) :
    Keeps c first n (fun _ => True) (invalidateEach revisions) := by
  induction revisions with
  | nil => exact pure_keeps _
  | cons revision rest ih =>
      exact Keeps.bind (Triple.modify fun p _ => ⟨invalidate_guar p, trivial⟩) fun _ => ih

theorem walletEvents_untouched (p : Page) :
    Untouched p { p with walletEvents := p.walletEvents + 1 } :=
  ⟨rfl, rfl, rfl, rfl, Or.inl rfl, rfl, rfl, fun _ he => he, fun _ he => he⟩

theorem walletEvent_keeps : Keeps c first n (fun _ => True) walletEvent := by
  refine (modify_untouched (stable_true n) walletEvents_untouched).bind fun _ => ?_
  exact read_keeps.bind fun p => invalidateEach_keeps p.listening

theorem withDeployment_runs {run : Deployment → Runtime Unit} {P : Page → Prop}
    (hrun : ∀ d, c.deployment = some d →
      Runs c first n P (run d) (fun _ _ => True) (fun _ => True)) :
    Runs c first n P (withDeployment c run) (fun _ _ => True) (fun _ => True) := by
  refine Triple.bind (require_runs.weaken (fun _ h => h) (fun _ _ h => h) fun _ _ => trivial)
    fun d => Runs.of_fact fun hd => hrun d hd

/-- Every call keeps its promises, whatever it is. -/
theorem body_runs (call : Call) :
    Runs c first n (fun p => Fresh n p.sends ∧ Inv c first p) (body c n call)
      (fun _ _ => True) (fun _ => True) := by
  have hkept : ∀ {x : Runtime Unit}, Keeps c first n (fun _ => True) x →
      Runs c first n (fun p => Fresh n p.sends ∧ Inv c first p) x (fun _ _ => True)
        (fun _ => True) := fun h => h.pre fun _ _ => trivial
  cases call with
  | connect =>
      exact (connect_runs 0).weaken (fun p _ => Nat.zero_le _) (fun _ _ _ => trivial)
        fun _ _ => trivial
  | refresh =>
      exact (refresh_runs 0).weaken (fun p _ => Nat.zero_le _) (fun _ _ _ => trivial)
        fun _ _ => trivial
  | walletEvent => exact hkept walletEvent_keeps
  | reviewDepositApprovals usdcBaseUnits =>
      exact withDeployment_runs fun d _ => hkept (reviewDepositApprovals_keeps usdcBaseUnits)
  | confirmDepositApproval review kind =>
      exact withDeployment_runs fun d _ => hkept (confirmDepositApproval_keeps review kind)
  | reviewAction request =>
      exact withDeployment_runs fun d hd => hkept (reviewAction_keeps hd request)
  | confirmAction review => exact withDeployment_runs fun d hd => confirmAction_runs hd review
  | reviewPassTransfer request =>
      exact withDeployment_runs fun d hd => hkept (reviewPassTransfer_keeps hd request)
  | confirmPassTransfer review =>
      exact withDeployment_runs fun d hd => confirmPassTransfer_runs hd review

end Calls

end Programs

end M3BrowserRuntime
end AlphaForge
