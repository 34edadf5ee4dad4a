/-
Every action of the plan is sent at most once, and in order.

`commit` saves the intent of an index behind entries that were all seen confirmed and
asks the wallet in the same stretch, so the send is authorized.  What the calls promise
makes a protocol, and the rule of protocols says the rest of every run: with reloads
between any two answers, and saves that fail.
-/
import AlphaForge.Client.DeploymentWallet.Calls
import AlphaForge.Text.Digits

namespace AlphaForge
namespace DeploymentWallet

open Evm Async Machine

section Programs

variable {c : Payload} {n : Nat} {call : Call} {index : Nat} {entry : DeploymentEntry}

theorem own_steady (n : Nat) : Steady n (Own n) :=
  steady_of_owner (fun _ hp => hp.busy) fun _ _ hp => hp.still

/-! ## Sending -/

/-- The journal holds `index` entries, all of them seen confirmed. -/
structure Ready (c : Payload) (n index : Nat) (p : Page) : Prop where
  own : Own n p
  vouched : Vouched c p
  length : p.journal.entries.length = index
  confirmed : ∀ e ∈ p.journal.entries, e.state = .confirmed

theorem ready_steady : Steady n (Ready c n index) := by
  refine steady_of_owner (fun _ hp => hp.own.busy) fun p p' hp hstill => ⟨hp.own.still hstill, ?_, ?_, ?_⟩
  · intro e he hstate
    rw [hstill.journal] at he
    exact (hp.vouched e he hstate).mono hstill.reads
  · rw [hstill.journal]
    exact hp.length
  · rw [hstill.journal]
    exact hp.confirmed

theorem ready_of_next {p : Page} (hown : Own n p) (hvouched : Vouched c p)
    (hnext : nextIndex p.journal = index ∧ p.journal.entries.length = index) : Ready c n index p := by
  refine ⟨hown, hvouched, hnext.2, fun e he => ?_⟩
  have hnone : nextIndex p.journal = p.journal.entries.length := hnext.1.trans hnext.2.symm
  rw [nextIndex, List.findIdx_eq_length] at hnone
  have hstate := hnone e he
  simpa using hstate

theorem finalPreflight_runs (entry : DeploymentEntry) (remainingGas remainingValue : Nat) :
    Runs c n call (Own n) (finalPreflight c index entry remainingGas remainingValue)
      (fun _ => Ready c n index) (Held n) := by
  refine Triple.bind reconcileJournal_runs fun _ => ?_
  refine Triple.read_bind (fun p _ => .still (Still.refl p)) fun page hpage => ?_
  refine Triple.bind (ensure_runs fun p hp => hp ▸ hpage.1.busy) fun _ => ?_
  refine Triple.pre (P := Ready c n index)
    (checkChain_keeps ready_steady (fun _ hp => hp.own.busy) _ _ _ _ _) ?_
  rintro p ⟨rfl, hnext⟩
  exact ready_of_next hpage.1 hpage.2 hnext

/-- The intent of `index` is saved behind entries that were all seen confirmed. -/
structure Intended (c : Payload) (n index : Nat) (entry : DeploymentEntry) (p : Page) : Prop where
  busy : p.busy = some n
  saved : p.saved = some p.journal
  valid : journalValid c p.journal
  entries : ∃ earlier, p.journal.entries = earlier ++ [entry] ∧ earlier.length = index ∧
    ∀ e ∈ earlier, Observed c p.reads e
  below : ∀ e ∈ p.sent, e.transaction.nonce < index

theorem entry_index {journal : DeploymentJournal} {j : Nat} (hvalid : journalValid c journal)
    (hentry : journal.entries[j]? = some entry) : entry.index = j := by
  have hmem : (entry, j) ∈ journal.entries.zipIdx := List.mem_zipIdx_iff_getElem?.mpr hentry
  exact (hvalid.2.2 _ hmem).1

theorem action_eq_ok {planned : DeploymentAction} :
    action c index = .ok planned ↔ c.actions[index]? = some planned := by
  unfold action
  cases c.actions[index]? with
  | none => exact ⟨fun h => (by cases h), fun h => (by cases h)⟩
  | some found => exact ⟨fun h => congrArg some (Except.ok.inj h), fun h => congrArg _ (Option.some.inj h)⟩

theorem authorized_of_intended {p : Page} {transaction : TransactionRequest}
    (hp : Intended c n index entry p) (hstate : entry.state = .intent)
    (htransaction : DeploymentWallet.transaction c index entry = .ok transaction) :
    Authorized c p ⟨transaction, p.saved, p.reads⟩ := by
  obtain ⟨earlier, hentries, hlength, hobserved⟩ := hp.entries
  simp only [DeploymentWallet.transaction, bind_eq_ok, pure_eq_ok] at htransaction
  obtain ⟨planned, hplanned, rfl⟩ := htransaction
  have hat : p.journal.entries[index]? = some entry := by
    rw [hentries, ← hlength, List.getElem?_concat_length]
  refine ⟨rfl, rfl, ⟨p.journal, hp.saved, ?_, ?_, ?_⟩, ?_, hp.below⟩
  · exact ⟨planned, action_eq_ok.mp hplanned, rfl, rfl, rfl⟩
  · exact ⟨entry, hat, entry_index hp.valid hat, hstate⟩
  · intro j hj
    change j < index at hj
    have hlt : j < earlier.length := hlength.symm ▸ hj
    have hget : p.journal.entries[j]? = some earlier[j] := by
      rw [hentries, List.getElem?_append_left hlt, List.getElem?_eq_getElem hlt]
    exact ⟨earlier[j], hget, entry_index hp.valid hget, hobserved _ (List.getElem_mem hlt)⟩
  · change index < p.journal.entries.length
    rw [hentries, List.length_append, hlength]
    exact Nat.lt_succ_self index

theorem putEntry_length (journal : DeploymentJournal) (index : Nat)
    (f : DeploymentEntry → DeploymentEntry) :
    (putEntry journal index f).entries.length = journal.entries.length :=
  List.length_map _

/-- Saving the journal with one entry put anew. -/
theorem putEntry_runs (index : Nat) (f : DeploymentEntry → DeploymentEntry) (page : Page)
    (hpage : Own n page) :
    Runs c n call (· = page) (persist c (putEntry page.journal index f)) (fun _ => Own n) (Held n) := by
  refine (persist_runs (fun p hp => hp ▸ hpage.busy) fun p hp => ?_).post ?_
  · rw [hp, putEntry_length]
  · rintro _ _ ⟨p, rfl, _, rfl⟩
    refine ⟨hpage.busy, fun e he => ?_⟩
    rw [putEntry_length]
    exact hpage.below e he

theorem resultUnknown_runs {Q : Unit → Page → Prop} :
    Runs c n call (Own n) (resultUnknown c index) Q (Held n) := by
  refine Triple.read_bind (fun p _ => .still (Still.refl p)) fun page hpage => ?_
  refine Triple.bind (putEntry_runs index _ page hpage) fun _ => ?_
  exact Triple.throw fun _ hp => hp.busy

theorem submit_runs (hcall : call = .sendNext) (hstate : entry.state = .intent) :
    Runs c n call (Intended c n index entry) (submit c index entry) (fun _ => Own n) (Held n) := by
  refine Triple.bind (ofExcept_runs fun _ hp => hp.busy) fun transaction => ?_
  refine Triple.bind (Q := fun _ => Own n) ?_ fun _ => ?_
  · refine Triple.modify fun p hp => ?_
    have hauthorized := authorized_of_intended hp.1 hstate hp.2
    refine ⟨.send _ hp.1.busy hcall hauthorized rfl, hp.1.busy, fun e he => ?_⟩
    rcases List.mem_append.mp he with he | he
    · exact Nat.lt_trans (hauthorized.earlier e he) hauthorized.below
    · rw [List.mem_singleton.mp he]
      exact hauthorized.below
  · refine Triple.bind (Q := fun _ => Own n)
      (Triple.request fun _ p p' hp hR _ => (own_steady n).relied p p' hp hR) fun answer => ?_
    cases answer with
    | error code => exact resultUnknown_runs
    | ok returned =>
        dsimp only
        split
        · exact resultUnknown_runs
        · next transactionHash _ =>
          refine Keeps.bind (note_keeps (own_steady n) (observedHash_still transactionHash)) fun _ => ?_
          refine Triple.read_bind (fun p _ => .still (Still.refl p)) fun page hpage => ?_
          exact putEntry_runs index _ page hpage

theorem commit_runs (hcall : call = .sendNext) (hstate : entry.state = .intent) :
    Runs c n call (Ready c n index) (commit c index entry) (fun _ => Own n) (Held n) := by
  refine (throwIfAborted_keeps fun _ hp => hp.own.busy).bind fun _ => ?_
  refine Triple.read_bind (fun p _ => .still (Still.refl p)) fun page hpage => ?_
  refine Triple.bind (persist_runs (fun p hp => hp ▸ hpage.own.busy) fun p hp => ?_) fun _ => ?_
  · rw [hp, List.length_append]
    exact Nat.le_add_right _ _
  · refine Triple.pre (P := Intended c n index entry) ?_ ?_
    · exact (throwIfAborted_keeps fun _ hp => hp.busy).bind fun _ =>
        (notExpired_keeps fun _ hp => hp.busy).bind fun _ => submit_runs hcall hstate
    · rintro _ ⟨p, rfl, hvalid, rfl⟩
      refine ⟨hpage.own.busy, rfl, hvalid, ⟨p.journal.entries, rfl, hpage.length, ?_⟩, ?_⟩
      · exact fun e he => hpage.vouched e he (hpage.confirmed e he)
      · intro e he
        rw [← hpage.length]
        exact hpage.own.below e he

/-! ## Calls -/

theorem sendNext_runs :
    Runs c n .sendNext (Own n) (sendNext c) (fun _ => Own n) (Held n) := by
  have hE : ∀ p, Own n p → Held n p := fun _ hp => hp.busy
  refine (throwIfAborted_keeps hE).bind fun _ => ?_
  refine Triple.read_bind (fun p _ => .still (Still.refl p)) fun page hpage => ?_
  refine Triple.pre (P := Own n) ?_ fun p hp => hp ▸ hpage
  refine (ensure_keeps hE).bind fun _ => ?_
  refine Triple.bind (reconcileJournal_runs.post fun _ _ h => h.1) fun _ => ?_
  refine Triple.read_bind (fun p _ => .still (Still.refl p)) fun page hpage => ?_
  refine Triple.pre (P := Own n) ?_ fun p hp => hp ▸ hpage
  refine (ensure_keeps hE).bind fun _ => ?_
  refine (ensure_keeps hE).bind fun _ => ?_
  refine (notExpired_keeps hE).bind fun _ => ?_
  refine (checkBudget_keeps (own_steady n) hE _ _).bind fun remaining => ?_
  refine Triple.bind (estimated_runs (own_steady n) hE _) fun entry => ?_
  intro p hp
  have hrest : Runs c n .sendNext (Own n) (do
      finalPreflight c (nextIndex page.journal) entry remaining.1 remaining.2
      commit c (nextIndex page.journal) entry
      reconcileJournal c) (fun _ => Own n) (Held n) := by
    refine Triple.bind (finalPreflight_runs entry _ _) fun _ => ?_
    refine Triple.bind (commit_runs rfl hp.2.2) fun _ => ?_
    exact reconcileJournal_runs.post fun _ _ h => h.1
  exact hrest p hp.1

theorem recover_runs (transactionHashInput : String) :
    Runs c n call (Own n) (recover c transactionHashInput) (fun _ => Own n) (Held n) := by
  have hE : ∀ p, Own n p → Held n p := fun _ hp => hp.busy
  refine (identity_keeps (own_steady n) hE).bind fun _ => ?_
  refine (ofExcept_keeps hE).bind fun transactionHash => ?_
  refine Triple.read_bind (fun p _ => .still (Still.refl p)) fun page hpage => ?_
  refine Triple.pre (P := Own n) ?_ fun p hp => hp ▸ hpage
  dsimp only
  split
  · exact Triple.throw hE
  · next entry _ =>
    refine (ensure_keeps hE).bind fun _ => ?_
    refine Triple.bind ((observe_runs (own_steady n) hE hE _).post fun _ _ h => h.1) fun recovered => ?_
    refine (ensure_keeps hE).bind fun _ => ?_
    refine (identity_keeps (own_steady n) hE).bind fun _ => ?_
    refine (note_keeps (own_steady n) (observedHash_still transactionHash)).bind fun _ => ?_
    refine Triple.read_bind (fun p _ => .still (Still.refl p)) fun page hpage => ?_
    refine Triple.bind (putEntry_runs _ _ page hpage) fun _ => ?_
    exact reconcileJournal_runs.post fun _ _ h => h.1

theorem withSession_runs {x : Session Unit} {P : Page → Prop}
    (hx : Runs c n call (fun p => P p ∧ p.constructed = true) x (fun _ _ => True) fun _ => True) :
    Runs c n call P (withSession x) (fun _ _ => True) fun _ => True := by
  refine Triple.read_bind (fun p _ => .still (Still.refl p)) fun page hpage => ?_
  refine Triple.bind (ensure_runs fun _ _ => trivial) fun _ => hx.pre ?_
  rintro p ⟨rfl, hconstructed⟩
  exact ⟨hpage, hconstructed⟩

/-- What runs between taking `busy` and giving it back. -/
theorem exclusive_runs {x : Session Unit}
    (hx : Runs c n call (Own n) x (fun _ => Own n) (Held n)) :
    Runs c n call (Inv c) (exclusive n x) (fun _ _ => True) fun _ => True := by
  refine withSession_runs ?_
  refine Triple.read_bind (fun p _ => .still (Still.refl p)) fun page hpage => ?_
  refine Triple.bind (ensure_runs fun _ _ => trivial) fun _ => ?_
  refine Triple.bind (Q := fun _ => Own n) ?_ fun _ => ?_
  · refine Triple.modify ?_
    rintro p ⟨rfl, hfree⟩
    refine ⟨.acquire hpage.2 hfree rfl, rfl, fun e he => ?_⟩
    have hlt := hpage.1.below e he
    rwa [← hpage.1.journal hpage.2] at hlt
  · refine Triple.finally_ (hx.weaken (fun _ hp => hp) (fun _ p hp => ?_) fun p hp => ?_)
    · exact ⟨.release hp.busy rfl, trivial⟩
    · exact ⟨.release hp rfl, trivial⟩

theorem construct_runs :
    Runs c n call (Inv c) (construct c) (fun _ _ => True) fun _ => True := by
  refine Triple.read_bind (fun p _ => .still (Still.refl p)) fun page hpage => ?_
  refine Triple.bind (ensure_runs fun _ _ => trivial) fun _ => ?_
  refine Triple.bind (ensure_runs fun _ _ => trivial) fun _ => ?_
  refine Triple.modify ?_
  rintro p ⟨⟨rfl, hnone⟩, _⟩
  exact ⟨.construct hnone rfl, trivial⟩

theorem body_runs (call : Call) :
    Runs c n call (Inv c) (body c n call) (fun _ _ => True) fun _ => True := by
  cases call with
  | construct => exact construct_runs
  | connect =>
      refine withSession_runs ?_
      refine Triple.weaken (connect_keeps (steady_true n) fun _ hp => hp) (fun _ _ => trivial)
        (fun _ _ h => h) fun _ h => h
  | reconcile => exact exclusive_runs (reconcileJournal_runs.post fun _ _ h => h.1)
  | sendNext => exact exclusive_runs sendNext_runs
  | recover transactionHashInput => exact exclusive_runs (recover_runs transactionHashInput)

end Programs

/-! ## Runs -/

variable {c : Payload}

theorem protocol (c : Payload) :
    Concurrent.Protocol (body c) close (Inv c) (fun _ _ => True) Rely (Guar c) where
  refl n p _ := Still.refl p
  trans n p p' p'' h h' howner :=
    (h howner).trans (h' ((h howner).busy.trans howner))
  kept n call p p' hI h := h.kept hI
  heard n m call p p' hne hI h := h.heard hne hI
  fresh n m call p p' hne h _ := trivial
  begins n call p hI _ := wp_mono (fun _ _ _ => trivial) (body_runs call p hI)
  resetKept p hI :=
    ⟨fun n h => (by cases h), fun h => (by cases h), hI.valid, hI.sent, hI.below, hI.increasing⟩
  resetFresh n p _ := trivial

theorem start_inv (c : Payload) : Inv c (start c).state where
  owned n h := by cases h
  journal h := by cases h
  valid journal h := by cases h
  sent e he := absurd he List.not_mem_nil
  below e he := absurd he List.not_mem_nil
  increasing := List.Pairwise.nil

/-- Only `sendNext` asks for a transaction. -/
theorem moves_sent {n : Nat} {call : Call} {p p' : Page} (hcall : call ≠ .sendNext)
    (h : Concurrent.Moves (Inv c) (Guar c) n call p p') : p'.sent = p.sent := by
  induction h with
  | refl => rfl
  | tail _ hstep ih =>
      refine Eq.trans ?_ ih
      cases hstep.2 with
      | still h => exact h.sent
      | send e howner hsend => exact absurd hsend hcall
      | construct _ h | acquire _ _ h | release _ h | persist _ _ _ _ h | failed _ h => rw [h]

/-- The call that an event starts or goes on with. -/
def callOf (S : Concurrent Call Page Request Answer String) :
    Concurrent.Event Call Request Answer → Option Call
  | .begin call _ => some call
  | .resume place _ => (S.threads[place]?).map Thread.call
  | .reset => none

/-- Whatever the wallet, the chain reader and the storage answer, whichever calls are
made and whenever the page is closed: a transaction is asked for at most once for each
index, with that index as its nonce and what the plan approves for it, when its intent
was saved last and each entry before it was seen confirmed since the call began.  Only
`sendNext` asks for one. -/
theorem sends_once_in_order (c : Payload) (events : List (Concurrent.Event Call Request Answer)) :
    ((exec (step c) (start c) events).state.sent.map fun e => e.transaction.nonce).Nodup ∧
    (∀ e ∈ (exec (step c) (start c) events).state.sent, ∃ journal, Proper c e journal) ∧
    ∀ t ∈ history (step c) (start c) events, (∀ call ∈ callOf t.pre t.action, call ≠ .sendNext) →
      t.post.state.sent = t.pre.state.sent := by
  have hrun := (protocol c).run_sound (start_inv c) (fun _ => trivial) events
  refine ⟨?_, hrun.state.sent, fun t ht hcall => ?_⟩
  · rw [List.nodup_iff_pairwise_ne, List.pairwise_map]
    exact hrun.state.increasing.imp fun hlt => Nat.ne_of_lt hlt
  · obtain ⟨hpre, hstep, _⟩ := history_invariant
      (P := Concurrent.Sound (Inv c) (fun _ _ => True) Rely (Guar c))
      (fun event S S' hS hstep => (protocol c).step_sound hS hstep)
      ((protocol c).run_sound (start_inv c) (fun _ => trivial) []) ht
    cases haction : t.action with
    | begin call answers =>
        rw [haction] at hstep hcall
        exact moves_sent (hcall call rfl) ((protocol c).begin_sound hpre answers hstep).2
    | resume place answers =>
        rw [haction] at hstep hcall
        obtain ⟨_, thread, hthread, hmoves⟩ := (protocol c).resume_sound hpre answers hstep
        refine moves_sent (hcall thread.call ?_) hmoves
        rw [callOf, hthread]
        rfl
    | reset =>
        rw [haction] at hstep
        rw [((protocol c).reset_sound hpre hstep).2]
        rfl

end DeploymentWallet
end AlphaForge
