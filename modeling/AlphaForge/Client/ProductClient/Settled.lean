/-
Commands are settled truthfully.

In every run, an envelope is removed only after its command was applied or when it
never will be.  A command that was applied and comes again is answered as a
repetition, unless a bot runs on its vault and the command is one that bots exclude:
then the store refuses before it looks for the receipt.
-/
import AlphaForge.Client.ProductClient.Ledger

namespace AlphaForge
namespace ProductClient

open Evm Machine
open Automata (Env Db StoreCall besideBot isBotId Tidy)
open DomainVault (VaultState Event isId assertInvariant permitted historyMatches)

/-! ## The invariant -/

/-- What a response on its way says. -/
def Told (env : Env) (db : Db) (p : Pending) :
    Except (String × Nat) (VaultState × Bool) → Prop
  | .ok _ => Applied env db p
  | .error _ => Settled env db p

/-- What the call that waits may rely on. -/
def Awaits (env : Env) (s : State) : Prop :=
  match s.waiting with
  | none => True
  | some (.loading .refresh) => True
  | some (.loading (.retry p)) => p.core ∈ s.given ∧ s.page.selectedVaultId = some p.vaultId ∧
      s.page.user = some p.owner
  | some (.loading (.readback p _ _)) => p.core ∈ s.given ∧ Applied env s.db p
  | some (.sending p number) => p.core ∈ s.given ∧ number < s.sent ∧
      (∀ r ∈ s.requests, r.1 = number → r.2 = p) ∧ ∀ r ∈ s.responses, r.1 = number → r.2.1 = p

structure Inv (env : Env) (s : State) : Prop where
  ledger : Ledger env s.given s.db
  stored : ∀ p, s.storage = some p → p.core ∈ s.given ∧
    (p.rejection.isSome = true → Settled env s.db p)
  requests : ∀ r ∈ s.requests, r.1 < s.sent ∧ r.2.core ∈ s.given
  responses : ∀ r ∈ s.responses, r.1 < s.sent ∧ r.2.1.core ∈ s.given ∧ Told env s.db r.2.1 r.2.2
  waiting : Awaits env s
  page : ∀ view ∈ s.page.vaults, Viewed s.db view

section Steps

variable {env : Env} {s s' : State} {p : Pending}

theorem Told.evolves {db db' : Db} {given : List Pending}
    {reply : Except (String × Nat) (VaultState × Bool)} (h : Told env db p reply)
    (hp : p.core ∈ given) (he : Evolves env given db db') : Told env db' p reply := by
  cases reply with
  | ok result => exact he.applied p hp h
  | error e => exact he.settled hp h

theorem inv_start : Inv env start where
  ledger := ⟨Automata.tidy_empty, fun id v hv => (by cases hv), List.nodup_nil,
    fun d hd => (by cases hd), fun d hd => (by cases hd)⟩
  stored p hp := by cases hp
  requests r hr := by cases hr
  responses r hr := by cases hr
  waiting := trivial
  page view hview := by cases hview

/-- The client is idle, with what it has stored and seen as before. -/
theorem Inv.idle (h : Inv env s) (page : Page)
    (hpage : ∀ view ∈ page.vaults, Viewed s.db view) :
    Inv env { s with page, waiting := none } :=
  ⟨h.ledger, h.stored, h.requests, h.responses, trivial, hpage⟩

theorem clearPrivate_vaults (page : Page) : (clearPrivate page).vaults = [] := rfl

theorem Inv.fail (h : Inv env s) (status : Option Nat) : Inv env (fail status s) := by
  refine h.idle _ fun view hview => ?_
  dsimp only at hview
  split at hview
  · rw [clearPrivate_vaults] at hview
    cases hview
  · exact h.page view hview

theorem Inv.confirm (h : Inv env s) (p : Pending) : Inv env (confirm p s) := by
  unfold ProductClient.confirm
  split
  · exact ⟨h.ledger, fun q hq => (by cases hq), h.requests, h.responses, trivial, h.page⟩
  · exact h.fail none

theorem Inv.send (h : Inv env s) (hp : p.core ∈ s.given) : Inv env (send p s) := by
  refine ⟨h.ledger, h.stored, fun r hr => ?_, fun r hr => ?_, ⟨hp, Nat.lt_succ_self _, ?_, ?_⟩, h.page⟩
  · rcases List.mem_append.mp hr with hr | hr
    · exact ⟨Nat.lt_succ_of_lt (h.requests r hr).1, (h.requests r hr).2⟩
    · rw [List.mem_singleton.mp hr]
      exact ⟨Nat.lt_succ_self _, hp⟩
  · exact ⟨Nat.lt_succ_of_lt (h.responses r hr).1, (h.responses r hr).2⟩
  · intro r hr hnumber
    rcases List.mem_append.mp hr with hr | hr
    · have hlt := (h.requests r hr).1
      omega
    · rw [List.mem_singleton.mp hr]
  · intro r hr hnumber
    have hlt := (h.responses r hr).1
    omega

/-- The commands that a continuation may send again. -/
def Continuation.Of (given : List Pending) : Continuation → Prop
  | .retry p => p.core ∈ given
  | _ => True

theorem Inv.proceed (h : Inv env s) {next : Continuation} (hnext : next.Of s.given) :
    Inv env (proceed next s) := by
  cases next with
  | refresh => exact h.idle s.page h.page
  | retry p =>
      unfold ProductClient.proceed
      dsimp only
      split
      · split
        · exact h.confirm p
        · exact h.fail none
      · exact h.send hnext
  | readback p revision replayed =>
      unfold ProductClient.proceed
      dsimp only
      split
      · exact h.confirm p
      · exact h.fail none

theorem Inv.beginLoad (h : Inv env s) (next : Continuation)
    (hnext : Awaits env { s with waiting := some (.loading next) }) :
    Inv env (beginLoad next s) := by
  refine ⟨h.ledger, h.stored, h.requests, h.responses, ?_, h.page⟩
  cases next with
  | refresh => trivial
  | retry p => exact hnext
  | readback p revision replayed => exact hnext

theorem load_eq_ok {expectedOwner : Option String} {reading : Reading} {page : Page}
    (h : load expectedOwner reading s = .ok page) :
    page.vaults = reading.vaults ∧ page.user = some reading.user ∧
      (∀ expected ∈ expectedOwner, reading.user = expected) ∧
      ∃ selected, page.selectedVaultId = selected.map ClientVault.id ∧
        page.audit = (selected.bind (fun vault => reading.audit.get? vault.id)).getD [] ∧
        selected = (reading.vaults.find? (fun vault => some vault.id =
          (if s.page.user.any (· ≠ reading.user) then clearPrivate s.page else s.page).selectedVaultId.or
            ((s.storage.filter (fun p => p.owner = reading.user)).map (·.vaultId)))).or
          reading.vaults.head? := by
  simp only [load, bind_eq_ok, ensure_eq_ok, pure_eq_ok] at h
  obtain ⟨_, _, _, howner, _, _, _, _, rfl⟩ := h
  exact ⟨rfl, rfl, howner, _, rfl, rfl, rfl⟩

theorem viewed_of_truthful {db : Db} {reading : Reading} (h : truthful db reading) :
    ∀ view ∈ reading.vaults, Viewed db view := by
  intro view hview
  obtain ⟨v, hv, howner, _, hrevision⟩ := h.1 view hview
  exact ⟨v, hv, howner, hrevision⟩

/-- The server moves on. -/
theorem Inv.evolves {db : Db} (h : Inv env s) (he : Evolves env s.given s.db db) :
    Inv env { s with db } := by
  refine ⟨he.ledger, fun p hp => ⟨(h.stored p hp).1, fun hr => ?_⟩, h.requests, fun r hr => ?_, ?_,
    fun view hview => he.viewed view (h.page view hview)⟩
  · exact he.settled (h.stored p hp).1 ((h.stored p hp).2 hr)
  · obtain ⟨hnumber, hgiven, htold⟩ := h.responses r hr
    exact ⟨hnumber, hgiven, htold.evolves hgiven he⟩
  · have hwaiting := h.waiting
    unfold Awaits at hwaiting ⊢
    dsimp only
    split at hwaiting
    · trivial
    · trivial
    · exact hwaiting
    · exact ⟨hwaiting.1, he.applied _ hwaiting.1 hwaiting.2⟩
    · exact hwaiting

/-- A message is taken off the network. -/
theorem Inv.requestTaken (h : Inv env s) (place : Nat) :
    Inv env { s with requests := s.requests.eraseIdx place } := by
  refine ⟨h.ledger, h.stored, fun r hr => h.requests r (List.mem_of_mem_eraseIdx hr), h.responses, ?_,
    h.page⟩
  have hwaiting := h.waiting
  unfold Awaits at hwaiting ⊢
  dsimp only
  split at hwaiting
  · trivial
  · trivial
  · exact hwaiting
  · exact hwaiting
  · exact ⟨hwaiting.1, hwaiting.2.1, fun r hr => hwaiting.2.2.1 r (List.mem_of_mem_eraseIdx hr),
      hwaiting.2.2.2⟩

theorem Inv.responseTaken (h : Inv env s) (place : Nat) :
    Inv env { s with responses := s.responses.eraseIdx place } := by
  refine ⟨h.ledger, h.stored, h.requests, fun r hr => h.responses r (List.mem_of_mem_eraseIdx hr), ?_,
    h.page⟩
  have hwaiting := h.waiting
  unfold Awaits at hwaiting ⊢
  dsimp only
  split at hwaiting
  · trivial
  · trivial
  · exact hwaiting
  · exact hwaiting
  · exact ⟨hwaiting.1, hwaiting.2.1, hwaiting.2.2.1,
      fun r hr => hwaiting.2.2.2 r (List.mem_of_mem_eraseIdx hr)⟩

/-- A response is put on the network, for a request that was on it. -/
theorem Inv.replied (h : Inv env s) {number : Nat}
    {reply : Except (String × Nat) (VaultState × Bool)} (hnumber : number < s.sent)
    (hp : p.core ∈ s.given) (htold : Told env s.db p reply)
    (hown : ∀ q awaited, s.waiting = some (.sending q awaited) → number = awaited → p = q) :
    Inv env { s with responses := s.responses ++ [(number, p, reply)] } := by
  refine ⟨h.ledger, h.stored, h.requests, fun r hr => ?_, ?_, h.page⟩
  · rcases List.mem_append.mp hr with hr | hr
    · exact h.responses r hr
    · rw [List.mem_singleton.mp hr]
      exact ⟨hnumber, hp, htold⟩
  · have hwaiting := h.waiting
    unfold Awaits at hwaiting ⊢
    dsimp only
    split at hwaiting
    · trivial
    · trivial
    · exact hwaiting
    · exact hwaiting
    · next q awaited hsending =>
      refine ⟨hwaiting.1, hwaiting.2.1, hwaiting.2.2.1, fun r hr heq => ?_⟩
      rcases List.mem_append.mp hr with hr | hr
      · exact hwaiting.2.2.2 r hr heq
      · rw [List.mem_singleton.mp hr] at heq ⊢
        exact hown q awaited hsending heq

theorem Inv.answered (h : Inv env s) {reply : Except (String × Nat) (VaultState × Bool)}
    (hp : p.core ∈ s.given) (htold : Told env s.db p reply) : Inv env (answered p reply s) := by
  cases reply with
  | error e =>
      obtain ⟨code, status⟩ := e
      unfold ProductClient.answered
      dsimp only
      split
      · next hrejected =>
        have hnoted : Inv env
            { s with
              storage := some { p with rejection := some (code, status) }
              page := { s.page with rejectionRefreshed := false } } := by
          refine ⟨h.ledger, fun q hq => ?_, h.requests, h.responses, h.waiting, h.page⟩
          rw [← Option.some.inj hq]
          exact ⟨hp, fun _ => htold.imp_right fun ⟨v, hdead⟩ =>
            ⟨v, hdead.found, hdead.fresh, hdead.refused⟩⟩
        exact hnoted.fail _
      · exact h.fail _
  | ok result =>
      obtain ⟨vault, replayed⟩ := result
      unfold ProductClient.answered
      dsimp only
      split
      · exact h.beginLoad _ ⟨hp, htold⟩
      · exact h.fail none

/-- A command that is given now: its id is new, and its revision was on the server. -/
theorem Inv.give (h : Inv env s) {view : ClientVault} {id : String} {body : DomainVault.Body}
    (hview : Viewed s.db view) (huuid : isUuid id = true) (hnew : ∀ d ∈ s.given, d.id ≠ id)
    (hunused : ∀ e ∈ s.db.vaults, e.2.receipts.get? id = none)
    (hvalid : validateCommand ⟨view.ownerId, view.id, id, view.revision, body, none⟩ = .ok ()) :
    Inv env { s with
      storage := some ⟨view.ownerId, view.id, id, view.revision, body, none⟩
      given := ⟨view.ownerId, view.id, id, view.revision, body, none⟩ :: s.given
      waiting := none } := by
  obtain ⟨v, hfound, howner, hrevision⟩ := hview
  refine ⟨⟨h.ledger.tidy, h.ledger.executor, ?_, ?_, ?_⟩, ?_, ?_, ?_, trivial, h.page⟩
  · rw [List.map_cons, List.nodup_cons]
    refine ⟨fun hmem => ?_, h.ledger.ids⟩
    obtain ⟨d, hd, hid⟩ := List.mem_map.mp hmem
    exact hnew d hd hid
  · intro d hd
    rcases List.mem_cons.mp hd with rfl | hd
    · rfl
    · exact h.ledger.plain d hd
  · intro d hd
    rcases List.mem_cons.mp hd with rfl | hd
    · refine ⟨huuid, hvalid, v, hfound, howner, hrevision, fun receipt hreceipt => ?_⟩
      rw [hunused _ (OrderedMap.mem_of_get? hfound)] at hreceipt
      cases hreceipt
    · exact h.ledger.given d hd
  · intro q hq
    rw [← Option.some.inj hq]
    exact ⟨List.mem_cons_self, fun hrejected => by cases hrejected⟩
  · exact fun r hr => ⟨(h.requests r hr).1, List.mem_cons_of_mem _ (h.requests r hr).2⟩
  · exact fun r hr => ⟨(h.responses r hr).1, List.mem_cons_of_mem _ (h.responses r hr).2.1,
      (h.responses r hr).2.2⟩

theorem step_inv {a : Action} (h : Inv env s) (hstep : step env a s = .ok s') : Inv env s' := by
  cases a with
  | refresh =>
      simp only [step, bind_eq_ok, pure_eq_ok] at hstep
      obtain ⟨_, _, rfl⟩ := hstep
      exact h.beginLoad _ trivial
  | command id body =>
      simp only [step, bind_eq_ok, ensure_eq_ok] at hstep
      obtain ⟨view, hprepare, _, ⟨huuid, hnew, hunused⟩, hstep⟩ := hstep
      split at hstep
      · rw [← pure_eq_ok.mp hstep]
        exact h.fail none
      · next hvalid =>
        rw [← pure_eq_ok.mp hstep]
        have hview : Viewed s.db view := by
          simp only [prepare, bind_eq_ok] at hprepare
          obtain ⟨_, _, _, _, _, _, hprepare⟩ := hprepare
          split at hprepare
          · cases hprepare
          · next found hfound =>
            simp only [bind_eq_ok, pure_eq_ok] at hprepare
            obtain ⟨_, _, rfl⟩ := hprepare
            obtain ⟨_, _, hfound⟩ := Option.bind_eq_some_iff.mp hfound
            exact h.page _ (List.mem_of_find?_eq_some hfound)
        exact (h.give hview huuid hnew hunused hvalid).send List.mem_cons_self
  | retry =>
      simp only [step, bind_eq_ok] at hstep
      obtain ⟨_, _, hstep⟩ := hstep
      split at hstep
      · cases hstep
      · next p hstored =>
        simp only [bind_eq_ok, ensure_eq_ok, pure_eq_ok] at hstep
        obtain ⟨_, howner, _, hvault, _, _, rfl⟩ := hstep
        exact h.beginLoad _ ⟨(h.stored p hstored).1, hvault.symm, howner.symm⟩
  | dismissRejected =>
      simp only [step, bind_eq_ok] at hstep
      obtain ⟨_, _, hstep⟩ := hstep
      split at hstep
      · cases hstep
      · simp only [bind_eq_ok, pure_eq_ok] at hstep
        obtain ⟨_, _, _, _, _, _, rfl⟩ := hstep
        exact ⟨h.ledger, fun q hq => (by cases hq), h.requests, h.responses, trivial, h.page⟩
  | reload =>
      rw [← Except.ok.inj hstep]
      exact h.idle _ fun view hview => by cases hview
  | loaded reading =>
      simp only [step] at hstep
      split at hstep
      · next next hwaiting =>
        simp only [bind_eq_ok, ensure_eq_ok] at hstep
        obtain ⟨_, htruthful, hstep⟩ := hstep
        split at hstep
        · rw [← pure_eq_ok.mp hstep]
          exact h.fail none
        · next page hload =>
          rw [← pure_eq_ok.mp hstep]
          have hidle := h.idle page (by
            rw [(load_eq_ok hload).1]
            exact viewed_of_truthful htruthful)
          have hof : next.Of s.given := by
            have hawaits := h.waiting
            unfold Awaits at hawaits
            rw [hwaiting] at hawaits
            cases next with
            | refresh => trivial
            | retry p => exact hawaits.1
            | readback p revision replayed => trivial
          have hnext := hidle.proceed hof
          cases next with
          | refresh => exact hnext
          | retry p => exact hnext
          | readback p revision replayed => exact hnext
      · cases hstep
  | failed status =>
      simp only [step] at hstep
      split at hstep
      · cases hstep
      · rw [← Except.ok.inj hstep]
        exact h.fail status
      · simp only [bind_eq_ok, pure_eq_ok] at hstep
        obtain ⟨_, _, rfl⟩ := hstep
        exact h.fail status
  | deliver place =>
      simp only [step] at hstep
      split at hstep
      · cases hstep
      · next number p hrequest =>
        obtain ⟨hnumber, hp⟩ := h.requests _ (List.mem_of_getElem? hrequest)
        have hown : ∀ q awaited, s.waiting = some (.sending q awaited) → number = awaited → p = q := by
          intro q awaited hsending heq
          have hawaits := h.waiting
          unfold Awaits at hawaits
          rw [hsending] at hawaits
          exact hawaits.2.2.1 _ (List.mem_of_getElem? hrequest) heq
        split at hstep
        · next result db hhandle =>
          rw [← Except.ok.inj hstep]
          have hmoved := (h.requestTaken place).evolves (h.ledger.delivered hp hhandle)
          exact hmoved.replied hnumber hp (applied_of_handle h.ledger.tidy hhandle) hown
        · next code hhandle =>
          rw [← Except.ok.inj hstep]
          obtain ⟨_, hvalid, v, hgiven⟩ := h.ledger.given _ hp
          exact (h.requestTaken place).replied hnumber hp
            (settled_of_error h.ledger.tidy (given_core.mp hgiven) hvalid hhandle) hown
  | respond place =>
      simp only [step] at hstep
      split at hstep
      · cases hstep
      · next number q reply hresponse =>
        obtain ⟨_, hq, htold⟩ := h.responses _ (List.mem_of_getElem? hresponse)
        split at hstep
        · next p awaited hsending =>
          split at hstep
          · next heq =>
            have hawaits := h.waiting
            unfold Awaits at hawaits
            rw [hsending] at hawaits
            have hsame := hawaits.2.2.2 _ (List.mem_of_getElem? hresponse) heq
            dsimp only at hsame
            rw [← Except.ok.inj hstep, ← hsame]
            exact (h.responseTaken place).answered hq htold
          · rw [← Except.ok.inj hstep]
            exact h.responseTaken place
        · rw [← Except.ok.inj hstep]
          exact h.responseTaken place
  | server call =>
      simp only [step, bind_eq_ok, ensure_eq_ok, pure_eq_ok] at hstep
      obtain ⟨_, hother, db, hdb, rfl⟩ := hstep
      exact h.evolves (h.ledger.server hother hdb)

theorem run_inv (as : List Action) : Inv env (exec (step env) start as) :=
  exec_invariant (fun _ _ _ h hstep => step_inv h hstep) inv_start as

/-! ## The database along a run -/

theorem confirm_db (p : Pending) (s : State) :
    (confirm p s).db = s.db ∧ (confirm p s).given = s.given := by
  unfold confirm
  split <;> exact ⟨rfl, rfl⟩

theorem proceed_db (next : Continuation) (s : State) :
    (proceed next s).db = s.db ∧ (proceed next s).given = s.given := by
  cases next with
  | refresh => exact ⟨rfl, rfl⟩
  | retry p =>
      unfold proceed
      dsimp only
      split
      · split
        · exact confirm_db p s
        · exact ⟨rfl, rfl⟩
      · exact ⟨rfl, rfl⟩
  | readback p revision replayed =>
      unfold proceed
      dsimp only
      split
      · exact confirm_db p s
      · exact ⟨rfl, rfl⟩

theorem answered_db (p : Pending) (reply : Except (String × Nat) (VaultState × Bool)) (s : State) :
    (answered p reply s).db = s.db ∧ (answered p reply s).given = s.given := by
  cases reply <;>
  · unfold answered
    dsimp only
    split <;> exact ⟨rfl, rfl⟩

/-- The database changes by calls on the server and by deliveries. -/
theorem step_db {a : Action} (hstep : step env a s = .ok s') : s.given ⊆ s'.given ∧
    (s'.db = s.db ∨
      (∃ call, (∀ d ∈ s.given, call.commandId ≠ some d.id) ∧
        Automata.step env call s.db = .ok s'.db) ∨
      ∃ r ∈ s.requests, ∃ result, handle env r.2 s.db = .ok (result, s'.db)) := by
  have hsame : ∀ {u : State}, u.db = s.db ∧ u.given = s.given → s.given ⊆ u.given ∧
      (u.db = s.db ∨ (∃ call, (∀ d ∈ s.given, call.commandId ≠ some d.id) ∧
        Automata.step env call s.db = .ok u.db) ∨
        ∃ r ∈ s.requests, ∃ result, handle env r.2 s.db = .ok (result, u.db)) :=
    fun {u} hu => ⟨hu.2 ▸ List.Subset.refl _, Or.inl hu.1⟩
  cases a with
  | refresh =>
      simp only [step, bind_eq_ok, pure_eq_ok] at hstep
      obtain ⟨_, _, rfl⟩ := hstep
      exact hsame ⟨rfl, rfl⟩
  | command id body =>
      simp only [step, bind_eq_ok] at hstep
      obtain ⟨view, _, _, _, hstep⟩ := hstep
      split at hstep
      · rw [← pure_eq_ok.mp hstep]
        exact hsame ⟨rfl, rfl⟩
      · rw [← pure_eq_ok.mp hstep]
        exact ⟨List.subset_cons_self _ _, Or.inl rfl⟩
  | retry =>
      simp only [step, bind_eq_ok] at hstep
      obtain ⟨_, _, hstep⟩ := hstep
      split at hstep
      · cases hstep
      · simp only [bind_eq_ok, pure_eq_ok] at hstep
        obtain ⟨_, _, _, _, _, _, rfl⟩ := hstep
        exact hsame ⟨rfl, rfl⟩
  | dismissRejected =>
      simp only [step, bind_eq_ok] at hstep
      obtain ⟨_, _, hstep⟩ := hstep
      split at hstep
      · cases hstep
      · simp only [bind_eq_ok, pure_eq_ok] at hstep
        obtain ⟨_, _, _, _, _, _, rfl⟩ := hstep
        exact hsame ⟨rfl, rfl⟩
  | reload =>
      rw [← Except.ok.inj hstep]
      exact hsame ⟨rfl, rfl⟩
  | loaded reading =>
      simp only [step] at hstep
      split at hstep
      · simp only [bind_eq_ok] at hstep
        obtain ⟨_, _, hstep⟩ := hstep
        split at hstep
        · rw [← pure_eq_ok.mp hstep]
          exact hsame ⟨rfl, rfl⟩
        · rw [← pure_eq_ok.mp hstep]
          exact hsame (proceed_db _ _)
      · cases hstep
  | failed status =>
      simp only [step] at hstep
      split at hstep
      · cases hstep
      · rw [← Except.ok.inj hstep]
        exact hsame ⟨rfl, rfl⟩
      · simp only [bind_eq_ok, pure_eq_ok] at hstep
        obtain ⟨_, _, rfl⟩ := hstep
        exact hsame ⟨rfl, rfl⟩
  | deliver place =>
      simp only [step] at hstep
      split at hstep
      · cases hstep
      · next number p hrequest =>
        split at hstep
        · next result db hhandle =>
          rw [← Except.ok.inj hstep]
          exact ⟨List.Subset.refl _,
            Or.inr (Or.inr ⟨_, List.mem_of_getElem? hrequest, result, hhandle⟩)⟩
        · rw [← Except.ok.inj hstep]
          exact hsame ⟨rfl, rfl⟩
  | respond place =>
      simp only [step] at hstep
      split at hstep
      · cases hstep
      · split at hstep
        · split at hstep
          · rw [← Except.ok.inj hstep]
            exact hsame (answered_db _ _ _)
          · rw [← Except.ok.inj hstep]
            exact hsame ⟨rfl, rfl⟩
        · rw [← Except.ok.inj hstep]
          exact hsame ⟨rfl, rfl⟩
  | server call =>
      simp only [step, bind_eq_ok, ensure_eq_ok, pure_eq_ok] at hstep
      obtain ⟨_, hother, db, hdb, rfl⟩ := hstep
      exact ⟨List.Subset.refl _, Or.inr (Or.inl ⟨call, hother, hdb⟩)⟩

theorem Inv.evolution {a : Action} (h : Inv env s) (hstep : step env a s = .ok s') :
    Evolves env s.given s.db s'.db := by
  rcases (step_db hstep).2 with hsame | ⟨call, hother, hcall⟩ | ⟨r, hr, result, hhandle⟩
  · rw [hsame]
    exact Evolves.refl h.ledger
  · exact h.ledger.server hother hcall
  · exact h.ledger.delivered (h.requests r hr).2 hhandle

/-- What was applied stays applied. -/
theorem Inv.stays_applied (h : Inv env s) (hhuman : isBotId p.id = false)
    (happlied : Applied env s.db p) (bs : List Action) :
    Applied env (exec (step env) s bs).db p := by
  refine (exec_invariant (P := fun u => Inv env u ∧ Applied env u.db p) (fun a u u' hu hstep =>
    ⟨step_inv hu.1 hstep, ?_⟩) ⟨h, happlied⟩ bs).2
  rcases (step_db hstep).2 with hsame | ⟨call, _, hcall⟩ | ⟨r, hr, result, hhandle⟩
  · rw [hsame]
    exact hu.2
  · exact hu.2.grows hhuman (Automata.step_progress hu.1.ledger.tidy hcall).2
  · exact hu.2.grows hhuman (handle_grows hu.1.ledger.tidy hhandle).2

/-- What is dead is never applied. -/
theorem Inv.never_applied (h : Inv env s) (hp : p.core ∈ s.given) {v : VaultState}
    (hdead : Dead env s.db p v) (bs : List Action) : ¬ Applied env (exec (step env) s bs).db p := by
  obtain ⟨_, hdead'⟩ := (exec_invariant
    (P := fun u => Inv env u ∧ p.core ∈ u.given ∧ ∃ v, Dead env u.db p v)
    (fun a u u' hu hstep => ⟨step_inv hu.1 hstep, (step_db hstep).1 hu.2.1,
      (hu.1.evolution hstep).dead p hu.2.1 hu.2.2⟩) ⟨h, hp, v, hdead⟩ bs).2.2
  exact hdead'.not_applied

/-! ## Removed envelopes -/

/-- An event of the vault is of a command whose receipt it has. -/
theorem applied_of_event {v : VaultState} {event : Event} (htidy : Tidy s.db)
    (hgiven : Given env s.db p v) (hmem : event ∈ v.events) (hid : event.commandId = p.id) :
    Applied env s.db p := by
  obtain ⟨i, hi⟩ := List.mem_iff_getElem?.mp hmem
  have hassert := (htidy.vaults _ v hgiven.found).2
  have hhistory := (DomainVault.assertInvariant_eq_ok.mp hassert).1.history
  have hreceipt := ((DomainVault.historyMatches_iff.mp hhistory).2.2 i event hi).2
  obtain ⟨receipt, hreceipt, _⟩ := Option.map_eq_some_iff.mp hreceipt
  rw [hid] at hreceipt
  exact ⟨v, receipt, hgiven.found, hgiven.ownerId, hreceipt, hgiven.receipt receipt hreceipt⟩

/-- The audit that `retry` reads is of the vault of its command. -/
theorem retry_applied {reading : Reading} {page : Page} {event : Event} (h : Inv env s)
    (hawaits : p.core ∈ s.given ∧ s.page.selectedVaultId = some p.vaultId ∧
      s.page.user = some p.owner)
    (htruthful : truthful s.db reading)
    (hload : load (some p.owner) reading s = .ok page) (hevent : event ∈ page.audit)
    (hid : event.commandId = p.id) (hmatches : auditMatches p event (page.vault p.vaultId)) :
    Applied env s.db p := by
  obtain ⟨hvaults, _, howner, selected, _, haudit, hselected⟩ := load_eq_ok hload
  obtain ⟨_, _, _, view, hview, _⟩ := hmatches
  have hfirst : (reading.vaults.find? (fun vault => vault.id = p.vaultId)) = some view := by
    rw [Page.vault, hvaults] at hview
    exact hview
  have hsame : ¬ (s.page.user.any (· ≠ reading.user) = true) := by
    rw [hawaits.2.2, howner p.owner rfl]
    simp
  rw [if_neg hsame, hawaits.2.1, Option.some_or] at hselected
  simp only [Option.some.injEq] at hselected
  rw [hfirst, Option.some_or] at hselected
  have hviewId : view.id = p.vaultId := by
    have hfound := List.find?_some hfirst
    exact of_decide_eq_true hfound
  rw [haudit, hselected, Option.bind_some, hviewId] at hevent
  cases hrows : reading.audit.get? p.vaultId with
  | none =>
      rw [hrows] at hevent
      cases hevent
  | some rows =>
      rw [hrows, Option.getD_some] at hevent
      obtain ⟨v, hv, hevents⟩ := htruthful.2 _ (OrderedMap.mem_of_get? hrows)
      obtain ⟨_, _, v', hgiven⟩ := h.ledger.given _ hawaits.1
      have hfound : s.db.vaults.get? p.vaultId = some v' := hgiven.found
      rw [show s.db.vaults.get? p.vaultId = some v from hv] at hfound
      obtain rfl := Option.some.inj hfound
      exact applied_of_event h.ledger.tidy (given_core.mp hgiven) (hevents event hevent) hid

theorem confirm_removes {q : Pending} {page : Page} (hp : s.storage = some p)
    (hnone : (confirm q { s with page }).storage = none) : q = p := by
  unfold confirm at hnone
  split at hnone
  · next hstored =>
    rw [hp] at hstored
    exact (Option.some.inj hstored).symm
  · rw [fail] at hnone
    dsimp only at hnone
    rw [hp] at hnone
    cases hnone

/-- An envelope that is removed. -/
theorem step_removes {a : Action} (h : Inv env s) (hstep : step env a s = .ok s')
    (hp : s.storage = some p) (hnone : s'.storage = none) :
    Applied env s.db p ∨ p.rejection.isSome = true ∧ Settled env s.db p := by
  have hkept : ∀ {u : State}, u.storage = s.storage → u.storage ≠ none := by
    intro u hu hempty
    rw [hu, hp] at hempty
    cases hempty
  cases a with
  | refresh =>
      simp only [step, bind_eq_ok, pure_eq_ok] at hstep
      obtain ⟨_, _, rfl⟩ := hstep
      exact absurd hnone (hkept rfl)
  | command id body =>
      simp only [step, bind_eq_ok, prepare, ensure_eq_ok] at hstep
      obtain ⟨view, ⟨_, hempty, _⟩, _⟩ := hstep
      rw [hp] at hempty
      cases hempty
  | retry =>
      simp only [step, bind_eq_ok] at hstep
      obtain ⟨_, _, hstep⟩ := hstep
      split at hstep
      · cases hstep
      · simp only [bind_eq_ok, pure_eq_ok] at hstep
        obtain ⟨_, _, _, _, _, _, rfl⟩ := hstep
        exact absurd hnone (hkept rfl)
  | dismissRejected =>
      simp only [step, bind_eq_ok] at hstep
      obtain ⟨_, _, hstep⟩ := hstep
      split at hstep
      · cases hstep
      · next q hstored =>
        simp only [bind_eq_ok, ensure_eq_ok] at hstep
        obtain ⟨_, hrejected, _⟩ := hstep
        rw [hp] at hstored
        obtain rfl := Option.some.inj hstored
        exact Or.inr ⟨hrejected, (h.stored p hp).2 hrejected⟩
  | reload =>
      rw [← Except.ok.inj hstep] at hnone
      exact absurd hnone (hkept rfl)
  | loaded reading =>
      simp only [step] at hstep
      split at hstep
      · next next hwaiting =>
        simp only [bind_eq_ok, ensure_eq_ok] at hstep
        obtain ⟨_, htruthful, hstep⟩ := hstep
        have hawaits := h.waiting
        unfold Awaits at hawaits
        rw [hwaiting] at hawaits
        split at hstep
        · rw [← pure_eq_ok.mp hstep] at hnone
          exact absurd hnone (hkept rfl)
        · next page hload =>
          rw [← pure_eq_ok.mp hstep] at hnone
          cases next with
          | refresh => exact absurd hnone (hkept rfl)
          | retry q =>
              unfold proceed at hnone
              dsimp only at hnone
              split at hnone
              · next event hfind =>
                split at hnone
                · next hmatches =>
                  have hid := List.find?_some hfind
                  rw [← confirm_removes hp hnone]
                  exact Or.inl (retry_applied h hawaits htruthful hload
                    (List.mem_of_find?_eq_some hfind) (of_decide_eq_true hid) hmatches)
                · exact absurd hnone (hkept rfl)
              · exact absurd hnone (hkept rfl)
          | readback q revision replayed =>
              unfold proceed at hnone
              dsimp only at hnone
              split at hnone
              · rw [← confirm_removes hp hnone]
                exact Or.inl hawaits.2
              · exact absurd hnone (hkept rfl)
      · cases hstep
  | failed status =>
      simp only [step] at hstep
      split at hstep
      · cases hstep
      · rw [← Except.ok.inj hstep] at hnone
        exact absurd hnone (hkept rfl)
      · simp only [bind_eq_ok, pure_eq_ok] at hstep
        obtain ⟨_, _, rfl⟩ := hstep
        exact absurd hnone (hkept rfl)
  | deliver place =>
      simp only [step] at hstep
      split at hstep
      · cases hstep
      · split at hstep <;>
        · rw [← Except.ok.inj hstep] at hnone
          exact absurd hnone (hkept rfl)
  | respond place =>
      simp only [step] at hstep
      split at hstep
      · cases hstep
      · next number q reply hresponse =>
        split at hstep
        · split at hstep
          · rw [← Except.ok.inj hstep] at hnone
            cases reply with
            | error e =>
                unfold answered at hnone
                dsimp only at hnone
                split at hnone
                · cases hnone
                · exact absurd hnone (hkept rfl)
            | ok result =>
                unfold answered at hnone
                dsimp only at hnone
                split at hnone
                · exact absurd hnone (hkept rfl)
                · exact absurd hnone (hkept rfl)
          · rw [← Except.ok.inj hstep] at hnone
            exact absurd hnone (hkept rfl)
        · rw [← Except.ok.inj hstep] at hnone
          exact absurd hnone (hkept rfl)
  | server call =>
      simp only [step, bind_eq_ok, pure_eq_ok] at hstep
      obtain ⟨_, _, db, _, rfl⟩ := hstep
      exact absurd hnone (hkept rfl)

/-! ## Repetitions -/

/-- No command leaves two events. -/
theorem nodup_commandIds {v : VaultState} (h : assertInvariant v = .ok ()) :
    (v.events.map (·.commandId)).Nodup := by
  have hhistory := (DomainVault.assertInvariant_eq_ok.mp h).1.history
  have hmatch := (DomainVault.historyMatches_iff.mp hhistory).2.2
  refine List.Nodup.of_map (fun id => (v.receipts.get? id).map (·.revision)) ?_
  have hrevisions : (v.events.map (·.commandId)).map
      (fun id => (v.receipts.get? id).map (·.revision)) =
      (List.range v.events.length).map (fun i => some (i + 1)) := by
    refine List.ext_getElem (by simp) fun i hi _ => ?_
    simp only [List.length_map] at hi
    obtain ⟨hrevision, hreceipt⟩ := hmatch i v.events[i] (List.getElem?_eq_getElem hi)
    simp only [List.getElem_map, List.getElem_range]
    rw [hreceipt, hrevision]
  rw [hrevisions]
  exact List.nodup_range.map fun i j h => by simpa using h

theorem permitted_call {v : VaultState} (howner : v.ownerId = p.owner)
    (hexecutor : v.executorId = "local-simulator") :
    permitted v p.call.actor p.call.command.body.type := by
  unfold permitted
  change if p.body.type.ownerAction = true then _ else _
  by_cases hown : p.body.type.ownerAction = true
  · have hactor : p.call.actor = ⟨p.owner, .owner⟩ := if_pos hown
    rw [if_pos hown, hactor]
    exact ⟨rfl, howner.symm⟩
  · have hactor : p.call.actor = ⟨"local-simulator", .executor⟩ := if_neg hown
    rw [if_neg hown, hactor]
    exact ⟨rfl, hexecutor.symm⟩

/-- A command that was applied, once more. -/
theorem resubmitted_iff {given : List Pending} {db : Db} (h : Ledger env given db)
    (hid : isId p.id = true) (happlied : Applied env db p) :
    (∃ state, submitted env p.owner p.vaultId p.call db = .ok ((state, true), db)) ↔
      db.occupied p.vaultId = false ∨ besideBot p.body.type = true := by
  obtain ⟨v, receipt, hfound, howner, hreceipt, hsame⟩ := happlied
  constructor
  · rintro ⟨state, hok⟩
    obtain ⟨_, _, hallowed, _⟩ := localCommand_returns (submitted_eq_ok.mp hok)
    exact hallowed
  · intro hallowed
    have hstep : DomainVault.step env.localeCompare p.call v = .ok v := by
      rw [DomainVault.step, DomainVault.execute, (h.tidy.vaults _ v hfound).2, ok_bind,
        DomainVault.validId, ensure_of (show isId p.call.command.id = true from hid), ok_bind,
        ensure_of (permitted_call howner (h.executor _ v hfound)), ok_bind]
      dsimp only
      rw [show p.call.command.id = p.id from rfl, hreceipt]
      dsimp only
      rw [ensure_of (show receipt.fingerprint = DomainVault.fingerprint _ _ _ _ from hsame)]
      rfl
    obtain ⟨replayed, db', hrun⟩ := localCommand_of h.tidy hfound howner hallowed hstep
    obtain ⟨previous, hget, _, _, ⟨hnew, _⟩ | ⟨_, rfl, rfl⟩⟩ := localCommand_returns hrun
    · have hprevious := (Automata.localGet_eq_ok hget).1
      rw [hfound] at hprevious
      obtain rfl := Option.some.inj hprevious
      rw [show p.call.command.id = p.id from rfl, hreceipt] at hnew
      cases hnew
    · exact ⟨v, submitted_eq_ok.mpr hrun⟩

end Steps

/-- In every run no command is applied twice, and an envelope is removed only when its
command was applied, or was rejected and never will be.  A command that was applied is
answered as a repetition at any later point, exactly when no bot runs on its vault or the
command may be given beside one. -/
theorem commands_settle_truthfully (env : Env) (as : List Action) :
    (∀ id v, (exec (step env) start as).db.vaults.get? id = some v →
      (v.events.map (·.commandId)).Nodup) ∧
    (∀ p : Pending, isId p.id = true → isBotId p.id = false →
      Applied env (exec (step env) start as).db p → ∀ bs,
        (∃ state, submitted env p.owner p.vaultId p.call (exec (step env) start (as ++ bs)).db =
          .ok ((state, true), (exec (step env) start (as ++ bs)).db)) ↔
        (exec (step env) start (as ++ bs)).db.occupied p.vaultId = false ∨
          besideBot p.body.type = true) ∧
    (∀ t ∈ history (step env) start as, ∀ p, t.pre.storage = some p → t.post.storage = none →
      Applied env t.post.db p ∨
        p.rejection.isSome = true ∧ ∀ bs, ¬ Applied env (exec (step env) t.post bs).db p) := by
  refine ⟨fun id v hv => ?_, fun p hid hhuman happlied bs => ?_, fun t ht p hp hnone => ?_⟩
  · exact nodup_commandIds ((run_inv as).ledger.tidy.vaults id v hv).2
  · have hlater := (run_inv as).stays_applied hhuman happlied bs
    rw [← exec_append] at hlater
    exact resubmitted_iff (run_inv (as ++ bs)).ledger hid hlater
  · obtain ⟨hpre, hstep, hpost⟩ :=
      history_invariant (P := Inv env) (fun _ _ _ h hstep => step_inv h hstep) inv_start ht
    have hgiven := (hpre.stored p hp).1
    have hevolves := hpre.evolution hstep
    rcases step_removes hpre hstep hp hnone with happlied | ⟨hrejected, happlied | hdead⟩
    · exact Or.inl (hevolves.applied p hgiven happlied)
    · exact Or.inl (hevolves.applied p hgiven happlied)
    · obtain ⟨v, hdead⟩ := hevolves.dead p hgiven hdead
      exact Or.inr ⟨hrejected, hpost.never_applied ((step_db hstep).1 hgiven) hdead⟩

/-! ## A bot that starts in between -/

open Automata (localEnv names_distinct)

def exampleCall (id : String) (revision : Int) (body : DomainVault.Body) : Action :=
  .server (.vault "alice" "vault_1"
    ⟨⟨"alice", .owner⟩, ⟨id, revision, body, [], names_distinct⟩, none⟩)

/-- The owner takes back what was allocated. -/
def examplePending : Pending := ⟨"alice", "vault_1", "c0", 2, .deallocate "5", none⟩

/-- The command is applied, and its response is lost. -/
def exampleRun : List Action :=
  [.server (.obtainTestPasses "alice" "strategy" "1" false), exampleCall "d1" 0 (.deposit "5"),
    exampleCall "a1" 1 (.allocate "5"), .refresh,
    .loaded ⟨"alice", [⟨"vault_1", "alice", "TEST_ONLY", 2⟩], []⟩, .command "c0" (.deallocate "5"),
    .deliver 0, .failed none]

def exampleBot : Action :=
  .server (.create "alice"
    { id := "run", vaultId := "vault_1", amount := "1", datasetId := "trend"
      parameters := { strategyMode := none, weights := [("rwa-a", 0)], deviationBps := 100,
                      intervalMs := 1000, feeBps := 0, maxSlippageBps := 0, limits := .off } })

theorem example_applied : Applied localEnv (exec (step localEnv) start exampleRun).db examplePending := by
  have hreceipt : ((exec (step localEnv) start exampleRun).db.vaults.get? "vault_1").bind
      (fun v => (v.receipts.get? "c0").map (fun receipt => (v.ownerId, receipt.fingerprint))) =
        some ("alice", fingerprintOf localEnv examplePending) := by
    decide +kernel
  obtain ⟨v, hfound, hreceipt⟩ := Option.bind_eq_some_iff.mp hreceipt
  obtain ⟨receipt, hget, heq⟩ := Option.map_eq_some_iff.mp hreceipt
  obtain ⟨howner, hsame⟩ := Prod.mk.inj heq
  exact ⟨v, receipt, hfound, howner, hget, hsame⟩

/-- While the vault is free, the command is known. -/
theorem example_repeated : ∃ state,
    submitted localEnv "alice" "vault_1" examplePending.call
      (exec (step localEnv) start (exampleRun ++ [.reload])).db =
        .ok ((state, true), (exec (step localEnv) start (exampleRun ++ [.reload])).db) :=
  ((commands_settle_truthfully localEnv exampleRun).2.1 examplePending (by decide) (by decide)
    example_applied [.reload]).mpr (Or.inl (by decide))

/-- Once a bot runs on the vault, the store refuses the command that it has applied. -/
theorem bot_hides_receipt :
    Applied localEnv (exec (step localEnv) start (exampleRun ++ [exampleBot])).db examplePending ∧
      submitted localEnv "alice" "vault_1" examplePending.call
        (exec (step localEnv) start (exampleRun ++ [exampleBot])).db =
          .error "BOT_OWNS_ALLOCATION" := by
  constructor
  · rw [exec_append]
    exact (run_inv exampleRun).stays_applied (by decide) example_applied [exampleBot]
  · rfl

end ProductClient
end AlphaForge
