/-
The calls of a deployment session keep their promises.

`reconcileJournal` leaves a journal whose confirmed entries were all observed since
the call began.  `commit` comes after one of these with nothing but confirmed entries,
saves the intent behind them and asks the wallet, all without a wait in between; that
is the one place where a send has to be authorized.
-/
import AlphaForge.Client.DeploymentWallet.Reading

namespace AlphaForge
namespace DeploymentWallet

open Evm Async

section Programs

variable {c : Payload} {n : Nat} {call : Call} {P E : Page → Prop} {α β : Type}

/-! ## More that only reads -/

theorem readNonceGuard_keeps (hP : Steady n P) (hE : ∀ p, P p → E p) (index : Nat) :
    Keeps c n call P E (readNonceGuard index) :=
  (readQuantity_keeps hP hE _ _).bind fun _ =>
  (readQuantity_keeps hP hE _ _).bind fun _ =>
  ensure_keeps hE

theorem walletNonceGuard_keeps (hP : Steady n P) (hE : ∀ p, P p → E p) (index : Nat) :
    Keeps c n call P E (walletNonceGuard index) :=
  (walletQuantity_keeps hP hE _ _).bind fun _ =>
  (walletQuantity_keeps hP hE _ _).bind fun _ =>
  ensure_keeps hE

theorem executionLimit_keeps (hP : Steady n P) (hE : ∀ p, P p → E p) (tag : BlockTag) :
    Keeps c n call P E (executionLimit tag) :=
  (read_keeps hP hE _).bind fun _ =>
  (ofExcept_keeps hE).bind fun _ =>
  (ensure_keeps hE).bind fun _ =>
  Triple.pure fun _ hp => hp

theorem head_keeps (hP : Steady n P) (hE : ∀ p, P p → E p) : Keeps c n call P E (head c) :=
  (head_runs hP hE).post fun _ _ h => h.1

theorem freshHead_keeps (hE : ∀ p, P p → E p) (block : List (String × Json)) :
    Keeps c n call P E (freshHead c block) :=
  now_keeps.bind fun _ => (ofExcept_keeps hE).bind fun _ => ensure_keeps hE

theorem notExpired_keeps (hE : ∀ p, P p → E p) : Keeps c n call P E (notExpired c) :=
  now_keeps.bind fun _ => ensure_keeps hE

/-- Fields that nothing here depends on. -/
theorem note_keeps (hP : Steady n P) {f : Page → Page} (hf : ∀ p, Still p (f p)) :
    Keeps c n call P E (Async.modify f) :=
  Triple.modify fun p hp => ⟨.still (hf p), hP.still p _ hp (hf p)⟩

theorem balance_still (balance : Nat) (p : Page) : Still p { p with
    lastBalance := some balance } :=
  ⟨rfl, rfl, rfl, rfl, rfl, rfl, List.prefix_refl _⟩

theorem observedHash_still (transactionHash : Bytes32) (p : Page) : Still p { p with
    lastObservedHash := some transactionHash } :=
  ⟨rfl, rfl, rfl, rfl, rfl, rfl, List.prefix_refl _⟩

theorem checkAnchor_keeps (hP : Steady n P) (hE : ∀ p, P p → E p)
    (previous : Option DeploymentEntry) (number : Nat) :
    Keeps c n call P E (checkAnchor previous number) := by
  unfold checkAnchor
  split
  · exact Triple.pure fun _ hp => hp
  · split
    · exact Triple.throw hE
    · exact (readObject_keeps hP hE _).bind fun _ =>
        (ofExcept_keeps hE).bind fun _ =>
        (ensure_keeps hE).bind fun _ =>
        (ofExcept_keeps hE).bind fun _ =>
        ensure_keeps hE

theorem checkHead_keeps (hP : Steady n P) (hE : ∀ p, P p → E p) (block : List (String × Json))
    (number : Nat) : Keeps c n call P E (checkHead block number) :=
  (readObject_keeps hP hE _).bind fun _ =>
  (ofExcept_keeps hE).bind fun _ =>
  (ofExcept_keeps hE).bind fun _ =>
  (ensure_keeps hE).bind fun _ =>
  (ofExcept_keeps hE).bind fun _ =>
  ensure_keeps hE

theorem checkFunds_keeps (hP : Steady n P) (hE : ∀ p, P p → E p) (index : Nat)
    (entry : DeploymentEntry) (block : List (String × Json))
    (number remainingGas remainingValue : Nat) :
    Keeps c n call P E (checkFunds c index entry block number remainingGas remainingValue) :=
  (executionLimit_keeps hP hE _).bind fun _ =>
  (ensure_keeps hE).bind fun _ =>
  (read_keeps hP hE _).bind fun _ =>
  (ensure_keeps hE).bind fun _ =>
  (ofExcept_keeps hE).bind fun _ =>
  (read_keeps hP hE _).bind fun _ =>
  (ensure_keeps hE).bind fun _ =>
  (readQuantity_keeps hP hE _ _).bind fun balance =>
  (note_keeps hP (balance_still balance)).bind fun _ =>
  (ensure_keeps hE).bind fun _ =>
  (ofExcept_keeps hE).bind fun _ =>
  (ensure_keeps hE).bind fun _ =>
  (readQuantity_keeps hP hE _ _).bind fun _ =>
  ensure_keeps hE

theorem checkChain_keeps (hP : Steady n P) (hE : ∀ p, P p → E p) (index : Nat)
    (entry : DeploymentEntry) (previous : Option DeploymentEntry)
    (remainingGas remainingValue : Nat) :
    Keeps c n call P E (checkChain c index entry previous remainingGas remainingValue) :=
  (head_keeps hP hE).bind fun block =>
  (ofExcept_keeps hE).bind fun number =>
  (checkFunds_keeps hP hE index entry block number remainingGas remainingValue).bind fun _ =>
  (identity_keeps hP hE).bind fun _ =>
  (readNonceGuard_keeps hP hE index).bind fun _ =>
  (checkAnchor_keeps hP hE previous number).bind fun _ =>
  (checkHead_keeps hP hE block number).bind fun _ =>
  (freshHead_keeps hE block).bind fun _ =>
  (walletNonceGuard_keeps hP hE index).bind fun _ =>
  (identity_keeps hP hE).bind fun _ =>
  freshHead_keeps hE block

theorem checkBudget_keeps (hP : Steady n P) (hE : ∀ p, P p → E p) (index : Nat)
    (entries : List DeploymentEntry) : Keeps c n call P E (checkBudget c index entries) :=
  (readNonceGuard_keeps hP hE index).bind fun _ =>
  (head_keeps hP hE).bind fun _ =>
  (readQuantity_keeps hP hE _ _).bind fun balance =>
  (note_keeps hP (balance_still balance)).bind fun _ =>
  (ofExcept_keeps hE).bind fun _ =>
  (ensure_keeps hE).bind fun _ =>
  (ensure_keeps hE).bind fun _ =>
  (ofExcept_keeps hE).bind fun _ =>
  (ensure_keeps hE).bind fun _ =>
  Triple.pure fun _ hp => hp

theorem estimated_runs (hP : Steady n P) (hE : ∀ p, P p → E p) (index : Nat) :
    Runs c n call P (estimated c index)
      (fun entry p => P p ∧ entry.index = index ∧ entry.state = .intent) E :=
  (ofExcept_keeps hE).bind fun _ =>
  (readQuantity_keeps hP hE _ _).bind fun _ =>
  (ensure_keeps hE).bind fun _ =>
  Triple.pure fun _ hp => ⟨hp, rfl, rfl⟩

theorem connect_keeps (hP : Steady n P) (hE : ∀ p, P p → E p) : Keeps c n call P E (connect c) := by
  refine (wallet_keeps hP hE _).bind fun _ => (walletQuantity_keeps hP hE _ _).bind fun chain => ?_
  refine Triple.ite (fun _ => ?_) fun _ => identity_keeps hP hE
  refine Keeps.bind (Triple.request fun _ p p' hp hR _ => hP.relied p p' hp hR) fun answer => ?_
  cases answer with
  | ok _ => exact identity_keeps hP hE
  | error code =>
      exact (ensure_keeps hE).bind fun _ =>
        (wallet_keeps hP hE _).bind fun _ =>
        (wallet_keeps hP hE _).bind fun _ =>
        identity_keeps hP hE

/-! ## The journal -/

/-- A call that holds `busy`, with every send so far in its journal. -/
structure Own (n : Nat) (p : Page) : Prop where
  busy : p.busy = some n
  below : ∀ e ∈ p.sent, e.transaction.nonce < p.journal.entries.length

theorem Own.still {p p' : Page} (h : Own n p) (hstill : Still p p') : Own n p' := by
  refine ⟨hstill.busy.trans h.busy, ?_⟩
  rw [hstill.sent, hstill.journal]
  exact h.below

/-- The call holds `busy`; so much is left after a throw. -/
def Held (n : Nat) (p : Page) : Prop := p.busy = some n

theorem persist_runs {journal : DeploymentJournal} (howner : ∀ p, P p → Held n p)
    (hlonger : ∀ p, P p → p.journal.entries.length ≤ journal.entries.length) :
    Runs c n call P (persist c journal)
      (fun _ p' => ∃ p, P p ∧ journalValid c journal ∧ p' = { p with
        saved := some journal, journal }) (Held n) := by
  refine Triple.bind (ensure_runs howner) fun _ => ?_
  refine Triple.bind (Q := fun _ p => P p ∧ journalValid c journal) (Triple.input fun _ _ hp => hp)
    fun stored => ?_
  refine Triple.ite (fun _ => ?_) fun _ => ?_
  · refine Triple.modify fun p hp => ⟨.persist journal (howner p hp.1) hp.2 (hlonger p hp.1) rfl, ?_⟩
    exact ⟨p, hp.1, hp.2, rfl⟩
  · refine Triple.bind (Q := fun _ => Held n) ?_ fun _ => Triple.throw fun _ hp => hp
    exact Triple.modify fun p hp => ⟨.failed (howner p hp.1) rfl, howner p hp.1⟩

/-- Every confirmed entry was observed since the call began. -/
def Vouched (c : Payload) (p : Page) : Prop :=
  ∀ e ∈ p.journal.entries, e.state = .confirmed → Observed c p.reads e

theorem observeEntries_runs (hP : Steady n P) (howner : ∀ p, P p → Held n p)
    (entries : List DeploymentEntry) :
    Runs c n call P (observeEntries c entries)
      (fun observed p => P p ∧ observed.length = entries.length ∧
        ∀ e ∈ observed, e.state = .confirmed → Observed c p.reads e) (Held n) := by
  induction entries generalizing P with
  | nil => exact Triple.pure fun p hp => ⟨hp, rfl, fun e he => absurd he List.not_mem_nil⟩
  | cons entry later ih =>
      refine Triple.bind (observe_runs hP howner howner entry) fun observed => ?_
      refine Triple.ite (fun hstate => ?_) fun hstate => ?_
      · refine Triple.pure fun p hp => ⟨hp.1, by rw [List.length_cons, List.length_map]; rfl, ?_⟩
        rintro e (_ | ⟨_, he⟩) hconfirmed
        · exact absurd hconfirmed hstate
        · obtain ⟨e', _, rfl⟩ := List.mem_map.mp he
          cases hconfirmed
      · have hconfirmed : observed.state = .confirmed := not_not.mp hstate
        have hfirst := hP.and_reads howner (F := fun reads => Observed c reads observed)
          fun _ _ h hle => h.mono hle
        refine Triple.bind ((ih hfirst fun p hp => howner p hp.1).pre fun p hp =>
          ⟨hp.1, hp.2.confirmed hconfirmed⟩) fun rest => ?_
        refine Triple.pure fun p hp => ⟨hp.1.1, by rw [List.length_cons, hp.2.1]; rfl, ?_⟩
        rintro e (_ | ⟨_, he⟩) hstate'
        · exact hp.1.2
        · exact hp.2.2 e he hstate'

theorem reconcileJournal_runs :
    Runs c n call (Own n) (reconcileJournal c) (fun _ p => Own n p ∧ Vouched c p) (Held n) := by
  have hown : Steady n (Own n) := steady_of_owner (fun _ hp => hp.busy) fun _ _ hp => hp.still
  refine (identity_keeps hown fun _ hp => hp.busy).bind fun _ => ?_
  refine Triple.read_bind (fun p _ => .still (Still.refl p)) fun page hpage => ?_
  -- the journal stays as it was read, since only this call writes it
  have hsteady : Steady n fun p => Own n p ∧ p.journal = page.journal :=
    steady_of_owner (fun _ hp => hp.1.busy) fun p p' hp hstill =>
      ⟨hp.1.still hstill, hstill.journal.trans hp.2⟩
  refine Triple.pre (P := fun p => Own n p ∧ p.journal = page.journal) ?_ ?_
  · refine Triple.bind (observeEntries_runs hsteady (fun _ hp => hp.1.busy) page.journal.entries)
      fun entries => ?_
    have hentries : Steady n fun p => (Own n p ∧ p.journal = page.journal) ∧
        entries.length = page.journal.entries.length ∧
        ∀ e ∈ entries, e.state = .confirmed → Observed c p.reads e :=
      steady_of_owner (fun _ hp => hp.1.1.busy) fun p p' hp hstill =>
        ⟨hsteady.still p p' hp.1 hstill, hp.2.1, fun e he hstate =>
          (hp.2.2 e he hstate).mono hstill.reads⟩
    refine (identity_keeps hentries fun _ hp => hp.1.1.busy).bind fun _ => ?_
    refine Triple.bind (persist_runs (fun _ hp => hp.1.1.busy) fun p hp => ?_) fun _ => ?_
    · rw [hp.1.2, hp.2.1]
    · refine Triple.pre (P := fun p => Own n p ∧ Vouched c p) ?_ ?_
      · exact (ofExcept_keeps fun _ hp => hp.1.busy).bind fun _ => ensure_keeps fun _ hp => hp.1.busy
      · rintro _ ⟨p, ⟨⟨hown, hjournal⟩, hlength, hobserved⟩, _, rfl⟩
        refine ⟨⟨hown.busy, fun e he => ?_⟩, hobserved⟩
        have hlt := hown.below e he
        rw [hjournal, ← hlength] at hlt
        exact hlt
  · rintro p rfl
    exact ⟨hpage, rfl⟩

end Programs

end DeploymentWallet
end AlphaForge
