/-
Any number of calls at once, with events of the wallet and reloads of the page.

No run leaves the invariant, so that submissions are not asked for twice and authority
is not granted without the wallet, in every run that meets the condition of each.  Two
confirmations of one transfer show that the first needs its condition, and a review
that outlasts a refresh shows it for the second.
-/
import AlphaForge.Client.M3BrowserRuntime.Submissions

namespace AlphaForge
namespace M3BrowserRuntime

open Evm Async Machine
open M3SubmissionJournal (SubmissionStorage chainId)

variable {c : Options} {first : SubmissionStorage} {p : Page}

/-! ## Loads -/

theorem start_inv (c : Options) (storage : SubmissionStorage) :
    Inv c storage (load c storage []) := by
  refine ⟨⟨fun e he => ?_, fun e he => ?_⟩, ⟨fun s hs => ?_, fun _ n t hstage => ?_, fun _ => trivial,
    fun owner => Or.inl rfl⟩, fun _ => ⟨trivial, fun _ => trivial, fun hsession => ?_⟩⟩
  · exact absurd he List.not_mem_nil
  · exact absurd he List.not_mem_nil
  · exact absurd hs List.not_mem_nil
  · cases hstage
  · cases hsession

/-- The submissions of the closed page are as they were, and nothing is shown yet. -/
theorem reload_inv (h : Inv c first p) : Inv c first (reload c p) := by
  refine ⟨⟨fun e he => ?_, fun e he => ?_⟩, ⟨h.sends.kept, fun _ n t hstage => ?_,
    h.sends.noDuplicate, h.sends.written⟩,
    fun _ => ⟨trivial, fun _ => trivial, fun hsession => ?_⟩⟩
  · exact absurd he List.not_mem_nil
  · exact absurd he List.not_mem_nil
  · cases hstage
  · cases hsession

theorem protocol (c : Options) (first : SubmissionStorage) :
    Concurrent.Protocol (body c) (reload c) (Inv c first) (fun n p => Fresh n p.sends) Rely
      (fun n _ => Guar c n) where
  refl := Rely.refl
  trans _ _ _ _ := Rely.trans
  kept _ _ _ _ hinv hguar := hguar.kept hinv
  heard _ _ _ _ _ hne _ hguar := hguar.heard hne
  fresh _ m _ p p' hne hguar hfresh :=
    own_fresh m p.sends p'.sends (hguar.sends.heard hne).1 (hguar.sends.heard hne).2 hfresh
  begins _ call p hinv hfresh :=
    wp_mono (fun _ _ _ => trivial) (body_runs call p ⟨hfresh, hinv⟩)
  resetKept _ := reload_inv
  resetFresh _ _ hfresh := ⟨rfl, hfresh.2⟩

theorem inv_in_every_run (c : Options) (storage : SubmissionStorage) (events : List Event) :
    Inv c storage (exec (step c) (start c storage) events).state :=
  ((protocol c storage).run_sound (start_inv c storage)
    (fun _ => ⟨rfl, fun _ hs => absurd hs List.not_mem_nil⟩) events).state

/-! ## A runtime and its wallet -/

def exampleDeployment : Deployment where
  vaultAddress := 8
  abiHash := 1
  manifestDigest := 1
  runtimeBytecodeHash := 1
  strategyPassAddress := 9
  strategyPassAbiHash := 1
  strategyPassRuntimeBytecodeHash := 1
  passInitialSupplyBaseUnits := none
  passInitialRecipient := none

def exampleOptions : Options where
  provider := true
  deployment := some exampleDeployment
  readRuntimeStatus := false
  readPassSnapshot := false
  registerSubmission := true
  readOperationEvidence := false
  devMock := false
  keccak256Evm _ := 1

def exampleSnapshot : VaultSnapshot := ⟨chainId, 8, 7, ⟨7, 9, 3, 3, false⟩⟩

/-- A wallet with these accounts, on the chain of the vault. -/
def exampleAnswers (accounts : List Address) (uuid : String) : Answers Answer := fun _ r =>
  match r with
  | .listen => true
  | .beforeSend => true
  | .now => true
  | .randomUUID => some uuid
  | .turn => ()
  | .accounts => .ok accounts
  | .requestAccounts => .ok accounts
  | .chainId => .ok chainId
  | .getBalance _ => none
  | .getCode _ => some [1]
  | .simulate _ => true
  | .balanceOf _ _ => none
  | .allowances _ _ => some ⟨5, 9, 0, 0⟩
  | .sendTransaction _ => .hash 6
  | .readRuntimeStatus => none
  | .readSnapshot _ => .ok exampleSnapshot
  | .readPassSnapshot _ => none
  | .readLiveSnapshot => .ok exampleSnapshot
  | .registerSubmission _ => true
  | .readOperationEvidence _ _ => .error (.error "UNAVAILABLE")

/-- A thread goes on for so many waits. -/
def exampleWaits (place waits : Nat) (accounts : List Address) (uuid : String) : List Event :=
  List.replicate waits (.resume place (exampleAnswers accounts uuid))

def exampleCall (call : Call) (place waits : Nat) (accounts : List Address) (uuid : String) :
    List Event :=
  .begin call (exampleAnswers accounts uuid) :: exampleWaits place waits accounts uuid

/-! ## Submissions -/

/-- In every run in which the journal lets a confirmation through only while nothing of
the same intent is on its way to the wallet or unresolved without being kept, no
transaction is asked for while the same is unresolved.  Whatever the journal has written
is read back. -/
theorem submits_once_when_checked_alone (c : Options) (storage : SubmissionStorage)
    (events : List Event) :
    (ChecksAlone (exec (step c) (start c storage) events).state.sends →
      NoDuplicate (exec (step c) (start c storage) events).state.sends) ∧
    WrittenBack c storage (exec (step c) (start c storage) events).state.storage :=
  let h := (inv_in_every_run c storage events).sends
  ⟨h.noDuplicate, h.written⟩

/-- One withdrawal is reviewed twice, and the second is confirmed while the wallet still
asks about the first. -/
def twoConfirmations : List Event :=
  exampleCall .connect 0 19 [7] "a" ++
    exampleCall (.reviewAction (.withdraw "1")) 0 5 [7] "b" ++
    exampleCall (.reviewAction (.withdraw "1")) 0 5 [7] "c" ++
    exampleCall (.confirmAction 1) 0 9 [7] "d" ++
    exampleCall (.confirmAction 2) 1 9 [7] "e"

set_option maxRecDepth 4000 in
theorem two_confirmations_ask_twice :
    ¬ NoDuplicate
      (exec (step exampleOptions) (start exampleOptions []) twoConfirmations).state.sends := by
  decide

/-! ## Authority -/

/-- In every run in which a review shows a deposit only while there is a session and no
revoked state is shown, nothing grants an authority that was revoked until a read that
began afterwards has seen the wallet. -/
theorem grants_only_authorized (c : Options) (storage : SubmissionStorage) (events : List Event)
    (hreviews : ReviewsCurrent (exec (step c) (start c storage) events).state.shown) :
    GrantsAuthorized (exec (step c) (start c storage) events).state.shown :=
  ((inv_in_every_run c storage events).shows hreviews).authorized

/-- A deposit is reviewed while nothing else happens. -/
def quietReview : List Event :=
  exampleCall .connect 0 19 [7] "a" ++ exampleCall (.reviewDepositApprovals "1") 0 8 [7] "b"

theorem quiet_review_authorized :
    GrantsAuthorized
      (exec (step exampleOptions) (start exampleOptions []) quietReview).state.shown :=
  grants_only_authorized exampleOptions [] quietReview (by decide)

/-- The wallet has no account when a refresh looks, and has it again when the review that
began before goes on. -/
def lateReview : List Event :=
  exampleCall .connect 0 19 [7] "a" ++
    exampleCall (.reviewDepositApprovals "1") 0 2 [7] "b" ++
    exampleCall .refresh 1 2 [] "c" ++
    exampleWaits 0 6 [7] "d"

theorem late_review_grants :
    ¬ GrantsAuthorized
      (exec (step exampleOptions) (start exampleOptions []) lateReview).state.shown := by
  decide

end M3BrowserRuntime
end AlphaForge
