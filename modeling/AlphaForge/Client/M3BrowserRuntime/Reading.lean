/-
The parts of a call that only read.

A condition is `Stable` when nothing that the others do can end it.  A program without
steps of its own keeps every such condition, whether it returns or throws.
-/
import AlphaForge.Client.M3BrowserRuntime.Protocol

namespace AlphaForge
namespace M3BrowserRuntime

open Evm Async
open M3SubmissionJournal (SubmissionStorage chainId)

def Stable (n : Nat) (P : Page → Prop) : Prop := ∀ p p', P p → Rely n p p' → P p'

theorem stable_true (n : Nat) : Stable n fun _ => True := fun _ _ _ _ => trivial

theorem Guar.refl {c : Options} {n : Nat} (p : Page) : Guar c n p p :=
  ⟨.kept rfl rfl, .kept rfl rfl (Or.inl rfl) rfl rfl, id⟩

section Programs

variable {c : Options} {first : SubmissionStorage} {n : Nat} {P E : Page → Prop} {α β : Type}

/-- A program of the call with this number keeps its promises, from `P`. -/
abbrev Runs (c : Options) (first : SubmissionStorage) (n : Nat) (P : Page → Prop) (x : Runtime α)
    (Q : α → Page → Prop) (E : Page → Prop) : Prop :=
  Triple (Inv c first) (Rely n) (Guar c n) P x Q E

/-- A program that returns and throws with what it started from. -/
abbrev Keeps (c : Options) (first : SubmissionStorage) (n : Nat) (P : Page → Prop)
    (x : Runtime α) : Prop :=
  Runs c first n P x (fun _ => P) P

theorem Keeps.bind {x : Runtime α} {k : α → Runtime β} {Q : β → Page → Prop}
    (hx : Keeps c first n P x) (hk : ∀ a, Runs c first n P (k a) Q P) :
    Runs c first n P (x >>= k) Q P :=
  Triple.bind hx hk

theorem request_keeps (hP : Stable n P) (r : Request) :
    Keeps c first n P (Async.request r) :=
  Triple.request fun _ p p' hp hR _ => hP p p' hp hR

theorem input_keeps (r : Request) : Keeps c first n P (Async.input r) :=
  Triple.input fun _ _ hp => hp

theorem read_keeps : Keeps c first n P Async.read :=
  fun p hp => ⟨Guar.refl p, hp⟩

theorem turn_runs (hP : Stable n P) : Runs c first n P turn (fun _ => P) E :=
  Triple.request fun _ p p' hp hR _ => hP p p' hp hR

theorem pure_keeps (a : α) : Keeps c first n P (Pure.pure a) := Triple.pure fun _ hp => hp

theorem throw_keeps (e : Failure) : Keeps c first n P (Async.throw e : Runtime α) :=
  Triple.throw fun _ hp => hp

theorem ofExcept_keeps (x : Except Failure α) : Keeps c first n P (Async.ofExcept x) :=
  Triple.ofExcept (fun _ _ _ hp => hp) fun _ hp => hp

theorem ofExcept_runs {x : Except Failure α} :
    Runs c first n P (Async.ofExcept x) (fun a p => P p ∧ x = .ok a) P :=
  Triple.ofExcept (fun _ _ hx hp => ⟨hp, hx⟩) fun _ hp => hp

theorem journaled_runs {x : Except String α} :
    Runs c first n P (journaled x) (fun a p => P p ∧ x = .ok a) P := by
  cases x with
  | ok a => exact Triple.pure fun _ hp => ⟨hp, rfl⟩
  | error e => exact Triple.throw fun _ hp => hp

theorem ensure_runs {q : Prop} [Decidable q] {e : Failure} :
    Runs c first n P (ensure q e) (fun _ p => P p ∧ q) P :=
  Triple.ite (fun hq => Triple.pure fun _ hp => ⟨hp, hq⟩) fun _ => Triple.throw fun _ hp => hp

theorem ensure_keeps {q : Prop} [Decidable q] {e : Failure} :
    Keeps c first n P (ensure q e) :=
  ensure_runs.post fun _ _ h => h.1

theorem require_runs {x : Option α} {e : Failure} :
    Runs c first n P (require x e) (fun a p => P p ∧ x = some a) P := by
  cases x with
  | some a => exact Triple.pure fun _ hp => ⟨hp, rfl⟩
  | none => exact Triple.throw fun _ hp => hp

theorem require_keeps {x : Option α} {e : Failure} : Keeps c first n P (require x e) :=
  require_runs.post fun _ _ h => h.1

theorem recover_keeps {x : Runtime α} {handler : Failure → Runtime α}
    (hx : Keeps c first n P x) (hhandler : ∀ e, Keeps c first n P (handler e)) :
    Keeps c first n P (Async.recover x handler) :=
  Triple.recover hx hhandler

/-- A step of the call's own that the others could have taken. -/
theorem modify_keeps {f : Page → Page} (hP : Stable n P) (hG : ∀ p, P p → Guar c n p (f p))
    (hR : ∀ p, P p → Rely n p (f p)) : Keeps c first n P (Async.modify f) :=
  Triple.modify fun p hp => ⟨hG p hp, hP p _ hp (hR p hp)⟩

/-- What is known apart from the state may be used. -/
theorem Runs.of_fact {q : Prop} {x : Runtime α} {Q : α → Page → Prop}
    (h : q → Runs c first n P x Q E) : Runs c first n (fun p => P p ∧ q) x Q E :=
  fun p hp => h hp.2 p hp.1

/-! ## Reads -/

variable (hP : Stable n P)
include hP

theorem sessionOf_keeps (accounts : Except WalletFailureCode (List Address)) :
    Keeps c first n P (sessionOf accounts) := by
  refine (ofExcept_keeps _).bind fun accounts => ?_
  cases accounts with
  | nil => exact pure_keeps _
  | cons account rest =>
      exact (request_keeps hP _).bind fun _ => (ofExcept_keeps _).bind fun _ => pure_keeps _

theorem observe_keeps : Keeps c first n P observe :=
  (request_keeps hP _).bind fun _ => sessionOf_keeps hP _

theorem assertRuntimeCode_keeps (target : Address) (expectedHash : Bytes32) :
    Keeps c first n P (assertRuntimeCode c target expectedHash) :=
  ensure_keeps.bind fun _ =>
  (request_keeps hP _).bind fun _ =>
  require_keeps.bind fun _ =>
  ensure_keeps

variable (d : Deployment)

theorem assertRuntimeStatus_keeps : Keeps c first n P (assertRuntimeStatus c d) :=
  Triple.ite
    (fun _ => (request_keeps hP _).bind fun _ => require_keeps.bind fun _ => ensure_keeps)
    fun _ => pure_keeps _

theorem readCanonicalSnapshot_keeps (owner : Address) :
    Keeps c first n P (readCanonicalSnapshot c d owner) :=
  (assertRuntimeStatus_keeps hP d).bind fun _ =>
  (request_keeps hP _).bind fun _ =>
  (ofExcept_keeps _).bind fun _ =>
  ensure_keeps.bind fun _ =>
  pure_keeps _

theorem readLiveExitSnapshot_keeps : Keeps c first n P (readLiveExitSnapshot c d) :=
  ensure_keeps.bind fun _ =>
  (request_keeps hP _).bind fun _ =>
  (ofExcept_keeps _).bind fun _ =>
  ensure_keeps.bind fun _ =>
  pure_keeps _

theorem readFlowSnapshot_keeps (owner : Address) :
    Keeps c first n P (readFlowSnapshot c d owner) :=
  recover_keeps ((readCanonicalSnapshot_keeps hP d owner).bind fun _ => pure_keeps _)
    fun _ => readLiveExitSnapshot_keeps hP d

omit hP in
theorem requiredAmounts_keeps (usdcBaseUnits : String) :
    Keeps c first n P (requiredAmounts usdcBaseUnits) :=
  require_keeps.bind fun _ => ensure_keeps.bind fun _ => pure_keeps _

theorem allowanceChain_keeps : Keeps c first n P allowanceChain := by
  refine (request_keeps hP _).bind fun answer => ?_
  cases answer with
  | ok id => exact pure_keeps _
  | error code => exact throw_keeps _

omit hP in
theorem allowanceOwner_keeps (accounts : Except WalletFailureCode (List Address)) :
    Keeps c first n P (allowanceOwner accounts) := by
  unfold allowanceOwner
  split
  · exact pure_keeps _
  · exact throw_keeps _
  · exact throw_keeps _

theorem authorization_keeps (session : WalletSession) (usdcBaseUnits : String) :
    Keeps c first n P (authorization c d session usdcBaseUnits) := by
  refine ensure_keeps.bind fun _ => (requiredAmounts_keeps _).bind ?_
  rintro ⟨usdc, pass⟩
  refine read_keeps.bind fun _ => (input_keeps _).bind fun (listening : Bool) => ?_
  exact ensure_keeps.bind fun _ =>
    (allowanceChain_keeps hP).bind fun _ =>
    ensure_keeps.bind fun _ =>
    (request_keeps hP _).bind fun _ =>
    (allowanceOwner_keeps _).bind fun _ =>
    ensure_keeps.bind fun _ =>
    (request_keeps hP _).bind fun _ =>
    require_keeps.bind fun _ =>
    (request_keeps hP _).bind fun _ =>
    (allowanceChain_keeps hP).bind fun _ =>
    read_keeps.bind fun _ =>
    (allowanceOwner_keeps _).bind fun _ =>
    ensure_keeps.bind fun _ =>
    ensure_keeps.bind fun _ =>
    pure_keeps _

theorem readEthBalance_keeps (session : WalletSession) :
    Keeps c first n P (readEthBalance c session) :=
  Triple.ite (fun _ => request_keeps hP _) fun _ => pure_keeps _

theorem readPass_keeps (session : WalletSession) (snapshot : RuntimeSnapshot) :
    Keeps c first n P (readPass c session snapshot) := by
  refine Triple.ite (fun _ => (request_keeps hP _).bind fun answer => ?_) fun _ =>
    Triple.ite (fun _ => (request_keeps hP _).bind fun _ => pure_keeps _) fun _ => pure_keeps _
  cases answer with
  | some pass => exact Triple.ite (fun _ => pure_keeps _) fun _ => pure_keeps _
  | none => exact pure_keeps _

omit hP in
theorem ShowsConnected.not_revoked {s : Presentation} (h : ShowsConnected s) : ¬ Revoked s := by
  rintro ⟨_, hstatus | hstatus | ⟨hwrong, _⟩⟩
  · rw [h.1] at hstatus
    cases hstatus
  · rw [h.1] at hstatus
    cases hstatus
  · rw [h.2] at hwrong
    cases hwrong

theorem connectedPresentation_runs (session : WalletSession) (snapshot : RuntimeSnapshot) :
    Runs c first n P (connectedPresentation c d session snapshot)
      (fun shown p => P p ∧ ShowsConnected shown) P := by
  refine (readEthBalance_keeps hP session).bind fun _ => ?_
  refine (readPass_keeps hP session snapshot).bind fun _ => ?_
  refine Triple.ite (fun _ => ?_) fun _ => ?_
  · exact read_keeps.bind fun _ => Triple.pure fun _ hp => ⟨hp, rfl, rfl⟩
  · refine (recover_keeps ((authorization_keeps hP d session _).bind fun _ => pure_keeps _)
      fun _ => pure_keeps _).bind fun _ => ?_
    exact read_keeps.bind fun _ => Triple.pure fun _ hp => ⟨hp, rfl, rfl⟩

end Programs

end M3BrowserRuntime
end AlphaForge
