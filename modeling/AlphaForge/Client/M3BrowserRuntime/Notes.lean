/-
What the notes beside a runtime say.

`sends` tells for each journaled submission whether it may still take effect:
`unresolved` are those that the wallet has neither rejected nor shown to have ended, and
`unkept` those among them that the journal was not told of.  `shown` tells whether what
is shown rests on the wallet: a publication that closes an authority `Revokes` it, and
it is `Authorized` again when a read that began afterwards has seen the wallet.
-/
import AlphaForge.Client.M3BrowserRuntime.Actions

namespace AlphaForge
namespace M3BrowserRuntime

open Evm

/-! ## Submissions -/

inductive Stage where
  | idle
  | ready (t : Intent)
  | asking (operationId : String) (t : Intent)
  deriving DecidableEq

/-- Where the call of this number stands with its submission. -/
def stage (n : Nat) : List SendNote → Stage
  | [] => .idle
  | .checked m t :: log => if m = n then .ready t else stage n log
  | .asked m operationId t :: log => if m = n then .asking operationId t else stage n log
  | .rejected m :: log => if m = n then .idle else stage n log
  | .unknown m :: log => if m = n then .idle else stage n log
  | .recorded m :: log => if m = n then .idle else stage n log
  | .unrecorded m :: log => if m = n then .idle else stage n log
  | .ended m :: log => if m = n then .idle else stage n log
  | .settled _ :: log => stage n log
  | .reloaded :: _ => .idle

structure Submission where
  call : Nat
  operationId : String
  intent : Intent
  deriving DecidableEq

/-- Asked for, without a rejection and without evidence that it has ended. -/
def unresolved : List SendNote → List Submission
  | [] => []
  | .asked n operationId t :: log => ⟨n, operationId, t⟩ :: unresolved log
  | .rejected n :: log => (unresolved log).filter (·.call ≠ n)
  | .settled operationId :: log => (unresolved log).filter (·.operationId ≠ operationId)
  | _ :: log => unresolved log

/-- Those that the journal was not told of: the wallet has not answered yet, or had not
when the page was closed, or gave no hash, or the journal did not take it. -/
def unkept : List SendNote → List Submission
  | [] => []
  | .asked n operationId t :: log => ⟨n, operationId, t⟩ :: unkept log
  | .rejected n :: log => (unkept log).filter (·.call ≠ n)
  | .recorded n :: log => (unkept log).filter (·.call ≠ n)
  | .settled operationId :: log => (unkept log).filter (·.operationId ≠ operationId)
  | _ :: log => unkept log

/-- Nothing was asked for while the same was unresolved. -/
def NoDuplicate : List SendNote → Prop
  | [] => True
  | .asked _ _ t :: log => (∀ s ∈ unresolved log, s.intent ≠ t) ∧ NoDuplicate log
  | _ :: log => NoDuplicate log

/-- The journal let a submission through only when no other of the same intent was
between the journal and the wallet, or unresolved without being in the journal. -/
def ChecksAlone : List SendNote → Prop
  | [] => True
  | .checked _ t :: log =>
      (∀ s ∈ unkept log, s.intent ≠ t) ∧ (∀ m, stage m log ≠ .ready t) ∧ ChecksAlone log
  | _ :: log => ChecksAlone log

def NoDuplicate.decide : (log : List SendNote) → Decidable (NoDuplicate log)
  | [] => .isTrue trivial
  | .asked _ _ t :: log =>
      @instDecidableAnd _ _ (inferInstanceAs (Decidable (∀ s ∈ unresolved log, s.intent ≠ t)))
        (NoDuplicate.decide log)
  | .checked _ _ :: log => NoDuplicate.decide log
  | .rejected _ :: log => NoDuplicate.decide log
  | .unknown _ :: log => NoDuplicate.decide log
  | .recorded _ :: log => NoDuplicate.decide log
  | .unrecorded _ :: log => NoDuplicate.decide log
  | .ended _ :: log => NoDuplicate.decide log
  | .settled _ :: log => NoDuplicate.decide log
  | .reloaded :: log => NoDuplicate.decide log

instance : DecidablePred NoDuplicate := NoDuplicate.decide

/-! ## Publications -/

def writes (s : Presentation) : Prop :=
  s.onchain.writeMode ≠ .disabled ∨ s.onchain.passTransferMode.getD .disabled ≠ .disabled

instance : DecidablePred writes := fun _ => by unfold writes; infer_instance

/-- A disconnected, account-changed or wrong-network state, with nothing to write. -/
def Revoked (s : Presentation) : Prop :=
  ¬ writes s ∧ (s.wallet.status = .disconnected ∨ s.wallet.status = .accountChanged ∨
    (s.network.status = .wrong ∧ s.wallet.status ≠ .connecting))

instance : DecidablePred Revoked := fun _ => by unfold Revoked; infer_instance

/-- Something may be written, or an account is shown as connected. -/
def Grants (s : Presentation) : Prop :=
  writes s ∨ (s.wallet.status = .connected ∧ s.network.status ≠ .wrong)

instance : DecidablePred Grants := fun _ => by unfold Grants; infer_instance

/-- Everything that `Revoked` and `Grants` look at, and whose account and error it is. -/
def authority (s : Presentation) :
    (WalletStatus × Option Address × Option String) × NetworkPresentation ×
      WriteMode × Option WriteMode :=
  ((s.wallet.status, s.wallet.address, s.wallet.errorCode), s.network,
    s.onchain.writeMode, s.onchain.passTransferMode)

/-- A revoked state is shown that was not shown already. -/
def Revokes : ShowNote → Prop
  | .published _ before _ after => Revoked after ∧ authority after ≠ authority before
  | _ => False

instance : DecidablePred Revokes
  | .published _ _ _ _ => by unfold Revokes; infer_instance
  | .began _ => .isFalse id
  | .observed _ => .isFalse id

/-- The read of this revision began after the last revocation. -/
def Since (revision : Nat) : List ShowNote → Prop
  | [] => False
  | entry :: log => entry = .began revision ∨ (¬ Revokes entry ∧ Since revision log)

/-- After the last revocation, a read that began later has seen the wallet. -/
def Authorized : List ShowNote → Prop
  | [] => True
  | .began _ :: log => Authorized log
  | .observed revision :: log => Authorized log ∨ Since revision log
  | .published origin before bound after :: log =>
      ¬ Revokes (.published origin before bound after) ∧ Authorized log

/-- Whatever grants something was published while that was authorized. -/
def GrantsAuthorized : List ShowNote → Prop
  | [] => True
  | .published _ _ _ after :: log => (Grants after → Authorized log) ∧ GrantsAuthorized log
  | _ :: log => GrantsAuthorized log

/-- A review published its presentation only while there was a session and what was shown
was not a revoked state. -/
def ReviewsCurrent : List ShowNote → Prop
  | [] => True
  | .published .review before bound _ :: log =>
      bound = true ∧ ¬ Revoked before ∧ ReviewsCurrent log
  | _ :: log => ReviewsCurrent log

def Since.decide (revision : Nat) : (log : List ShowNote) → Decidable (Since revision log)
  | [] => .isFalse id
  | entry :: log =>
      @instDecidableOr _ _ (inferInstanceAs (Decidable (entry = .began revision)))
        (@instDecidableAnd _ _ (inferInstanceAs (Decidable (¬ Revokes entry)))
          (Since.decide revision log))

def Authorized.decide : (log : List ShowNote) → Decidable (Authorized log)
  | [] => .isTrue trivial
  | .began _ :: log => Authorized.decide log
  | .observed revision :: log =>
      @instDecidableOr _ _ (Authorized.decide log) (Since.decide revision log)
  | .published origin before bound after :: log =>
      @instDecidableAnd _ _
        (inferInstanceAs (Decidable (¬ Revokes (.published origin before bound after))))
        (Authorized.decide log)

instance : DecidablePred Authorized := Authorized.decide

def GrantsAuthorized.decide : (log : List ShowNote) → Decidable (GrantsAuthorized log)
  | [] => .isTrue trivial
  | .began _ :: log => GrantsAuthorized.decide log
  | .observed _ :: log => GrantsAuthorized.decide log
  | .published _ _ _ after :: log =>
      @instDecidableAnd _ _ (inferInstanceAs (Decidable (Grants after → Authorized log)))
        (GrantsAuthorized.decide log)

instance : DecidablePred GrantsAuthorized := GrantsAuthorized.decide

def ReviewsCurrent.decide : (log : List ShowNote) → Decidable (ReviewsCurrent log)
  | [] => .isTrue trivial
  | .began _ :: log => ReviewsCurrent.decide log
  | .observed _ :: log => ReviewsCurrent.decide log
  | .published .read _ _ _ :: log => ReviewsCurrent.decide log
  | .published .kept _ _ _ :: log => ReviewsCurrent.decide log
  | .published .review before bound _ :: log =>
      @instDecidableAnd _ _ (inferInstanceAs (Decidable (bound = true)))
        (@instDecidableAnd _ _ (inferInstanceAs (Decidable (¬ Revoked before)))
          (ReviewsCurrent.decide log))

instance : DecidablePred ReviewsCurrent := ReviewsCurrent.decide

theorem Revoked.not_grants {s : Presentation} (h : Revoked s) : ¬ Grants s := by
  rintro (hwrites | ⟨hconnected, hnetwork⟩)
  · exact h.1 hwrites
  · rcases h.2 with hstatus | hstatus | ⟨hwrong, _⟩
    · rw [hstatus] at hconnected
      cases hconnected
    · rw [hstatus] at hconnected
      cases hconnected
    · exact hnetwork hwrong

theorem grants_congr {s s' : Presentation} (h : authority s' = authority s) :
    Grants s' ↔ Grants s := by
  simp only [authority, Prod.mk.injEq] at h
  obtain ⟨⟨hstatus, _, _⟩, hnetwork, hwrites, hpass⟩ := h
  rw [Grants, Grants, writes, writes, hstatus, hnetwork, hwrites, hpass]

theorem revoked_congr {s s' : Presentation} (h : authority s' = authority s) :
    Revoked s' ↔ Revoked s := by
  simp only [authority, Prod.mk.injEq] at h
  obtain ⟨⟨hstatus, _, _⟩, hnetwork, hwrites, hpass⟩ := h
  rw [Revoked, Revoked, writes, writes, hstatus, hnetwork, hwrites, hpass]

/-! ## Notes that are added -/

/-- Nothing is revoked by what was added. -/
def Extends (log log' : List ShowNote) : Prop :=
  ∃ added, log' = added ++ log ∧ ∀ entry ∈ added, ¬ Revokes entry

theorem Extends.refl (log : List ShowNote) : Extends log log :=
  ⟨[], rfl, fun _ h => absurd h List.not_mem_nil⟩

theorem Extends.trans {log log' log'' : List ShowNote} (h : Extends log log')
    (h' : Extends log' log'') : Extends log log'' := by
  obtain ⟨added, rfl, hadded⟩ := h
  obtain ⟨more, rfl, hmore⟩ := h'
  refine ⟨more ++ added, (List.append_assoc more added log).symm, fun entry hentry => ?_⟩
  rcases List.mem_append.mp hentry with hentry | hentry
  · exact hmore entry hentry
  · exact hadded entry hentry

theorem Extends.cons {entry : ShowNote} (h : ¬ Revokes entry) (log : List ShowNote) :
    Extends log (entry :: log) :=
  ⟨[entry], rfl, fun _ hentry => (List.mem_singleton.mp hentry) ▸ h⟩

theorem authorized_cons {entry : ShowNote} {log : List ShowNote} (h : ¬ Revokes entry)
    (hlog : Authorized log) : Authorized (entry :: log) := by
  cases entry with
  | began revision => exact hlog
  | observed revision => exact Or.inl hlog
  | published origin before bound after => exact ⟨h, hlog⟩

theorem Extends.authorized {log log' : List ShowNote} (h : Extends log log')
    (hlog : Authorized log) : Authorized log' := by
  obtain ⟨added, rfl, hadded⟩ := h
  induction added with
  | nil => exact hlog
  | cons entry rest ih =>
      exact authorized_cons (hadded entry List.mem_cons_self)
        (ih fun other hother => hadded other (List.mem_cons_of_mem _ hother))

theorem Extends.since {revision : Nat} {log log' : List ShowNote} (h : Extends log log')
    (hlog : Since revision log) : Since revision log' := by
  obtain ⟨added, rfl, hadded⟩ := h
  induction added with
  | nil => exact hlog
  | cons entry rest ih =>
      exact Or.inr ⟨hadded entry List.mem_cons_self,
        ih fun other hother => hadded other (List.mem_cons_of_mem _ hother)⟩

end M3BrowserRuntime
end AlphaForge
