/-
The parts of a call that only read, and what an observation proves.

A condition is `Steady` when no answer that comes in and nothing that others do can
end it.  A program that only reads keeps every such condition, and an entry that an
observation leaves confirmed was `Observed` among the answers.
-/
import AlphaForge.Client.DeploymentWallet.Protocol
import AlphaForge.Indexer.ChainStore.Steps

namespace AlphaForge
namespace DeploymentWallet

open Evm Async
open ChainStore (check_eq_ok)

structure Steady (n : Nat) (P : Page → Prop) : Prop where
  relied : ∀ p p', P p → Rely n p p' → P p'
  still : ∀ p p', P p → Still p p' → P p'

/-- For a call that holds `busy` the two are one. -/
theorem steady_of_owner {n : Nat} {P : Page → Prop} (howner : ∀ p, P p → p.busy = some n)
    (hstill : ∀ p p', P p → Still p p' → P p') : Steady n P :=
  ⟨fun p p' hp hR => hstill p p' hp (hR (howner p hp)), hstill⟩

theorem steady_true (n : Nat) : Steady n fun _ => True := ⟨fun _ _ _ _ => trivial, fun _ _ _ _ => trivial⟩

/-- Together with what the answers say, which more of them do not undo. -/
theorem Steady.and_reads {n : Nat} {P : Page → Prop} (hP : Steady n P)
    {F : List (Method × Json) → Prop} (howner : ∀ p, P p → p.busy = some n)
    (hF : ∀ reads reads', F reads → reads <+: reads' → F reads') :
    Steady n fun p => P p ∧ F p.reads :=
  steady_of_owner (fun p hp => howner p hp.1) fun p p' hp hstill =>
    ⟨hP.still p p' hp.1 hstill, hF _ _ hp.2 hstill.reads⟩

section Programs

variable {c : Payload} {n : Nat} {call : Call} {P : Page → Prop} {E : Page → Prop} {α β : Type}

/-- A program of this call keeps its promises, from `P`. -/
abbrev Runs (c : Payload) (n : Nat) (call : Call) (P : Page → Prop) (x : Session α)
    (Q : α → Page → Prop) (E : Page → Prop) : Prop :=
  Triple (Inv c) (Rely n) (Guar c n call) P x Q E

/-- A program that returns and throws with what it started from. -/
abbrev Keeps (c : Payload) (n : Nat) (call : Call) (P E : Page → Prop) (x : Session α) : Prop :=
  Runs c n call P x (fun _ => P) E

theorem Keeps.bind {x : Session α} {k : α → Session β} {Q : β → Page → Prop}
    (hx : Keeps c n call P E x) (hk : ∀ a, Runs c n call P (k a) Q E) :
    Runs c n call P (x >>= k) Q E :=
  Triple.bind hx hk

theorem ofExcept_runs {x : Except String α} (hE : ∀ p, P p → E p) :
    Runs c n call P (Async.ofExcept x) (fun a p => P p ∧ x = .ok a) E :=
  Triple.ofExcept (fun _ _ hx hp => ⟨hp, hx⟩) hE

theorem ofExcept_keeps {x : Except String α} (hE : ∀ p, P p → E p) :
    Keeps c n call P E (Async.ofExcept x) :=
  Triple.ofExcept (fun _ _ _ hp => hp) hE

theorem ensure_runs {q : Prop} [Decidable q] {error : String} (hE : ∀ p, P p → E p) :
    Runs c n call P (ensure_ q error) (fun _ p => P p ∧ q) E :=
  (ofExcept_runs hE).post fun _ _ h => ⟨h.1, (check_eq_ok.mp h.2)⟩

theorem ensure_keeps {q : Prop} [Decidable q] {error : String} (hE : ∀ p, P p → E p) :
    Keeps c n call P E (ensure_ q error) :=
  ofExcept_keeps hE

theorem still_append (p : Page) (entry : Method × Json) :
    Still p { p with
      reads := p.reads ++ [entry] } :=
  ⟨rfl, rfl, rfl, rfl, rfl, rfl, List.prefix_append _ _⟩

theorem read_runs (hP : Steady n P) (hE : ∀ p, P p → E p) (method : Method) :
    Runs c n call P (read method) (fun json p => P p ∧ (method, json) ∈ p.reads) E := by
  refine Triple.bind (Q := fun _ => P) (Triple.request fun _ p p' hp hR _ => hP.relied p p' hp hR)
    fun answer => ?_
  cases answer with
  | error code => exact Triple.throw hE
  | ok json =>
      refine Triple.bind (Q := fun _ p => P p ∧ (method, json) ∈ p.reads) ?_ fun _ => ?_
      · exact Triple.modify fun p hp => ⟨.still (still_append p _),
          hP.still _ _ hp (still_append p _), List.mem_append_right _ List.mem_cons_self⟩
      · exact Triple.pure fun _ hp => hp

theorem read_keeps (hP : Steady n P) (hE : ∀ p, P p → E p) (method : Method) :
    Keeps c n call P E (read method) :=
  (read_runs hP hE method).post fun _ _ h => h.1

theorem wallet_keeps (hP : Steady n P) (hE : ∀ p, P p → E p) (method : Method) :
    Keeps c n call P E (wallet method) := by
  refine Triple.bind (Q := fun _ => P) (Triple.request fun _ p p' hp hR _ => hP.relied p p' hp hR)
    fun answer => ?_
  cases answer with
  | error code => exact Triple.throw hE
  | ok json => exact Triple.pure fun _ hp => hp

theorem readQuantity_keeps (hP : Steady n P) (hE : ∀ p, P p → E p) (method : Method)
    (field : String) : Keeps c n call P E (readQuantity method field) :=
  (read_keeps hP hE method).bind fun _ => ofExcept_keeps hE

theorem walletQuantity_keeps (hP : Steady n P) (hE : ∀ p, P p → E p) (method : Method)
    (field : String) : Keeps c n call P E (walletQuantity method field) :=
  (wallet_keeps hP hE method).bind fun _ => ofExcept_keeps hE

theorem readObject_runs (hP : Steady n P) (hE : ∀ p, P p → E p) (method : Method) :
    Runs c n call P (readObject method) (fun fields p => P p ∧ Read p.reads method fields) E :=
  Triple.bind (read_runs hP hE method) fun json =>
    (ofExcept_runs (fun p hp => hE p hp.1)).post fun _ _ h => ⟨h.1.1, json, h.1.2, h.2⟩

theorem readObject_keeps (hP : Steady n P) (hE : ∀ p, P p → E p) (method : Method) :
    Keeps c n call P E (readObject method) :=
  (readObject_runs hP hE method).post fun _ _ h => h.1

theorem now_keeps : Keeps c n call P E now := Triple.input fun _ _ hp => hp

theorem throwIfAborted_keeps (hE : ∀ p, P p → E p) : Keeps c n call P E throwIfAborted :=
  Keeps.bind (Triple.input fun _ _ hp => hp) fun _ => ensure_keeps hE

theorem identity_keeps (hP : Steady n P) (hE : ∀ p, P p → E p) : Keeps c n call P E (identity c) :=
  (readQuantity_keeps hP hE _ _).bind fun _ =>
  (ensure_keeps hE).bind fun _ =>
  (walletQuantity_keeps hP hE _ _).bind fun _ =>
  (ensure_keeps hE).bind fun _ =>
  (wallet_keeps hP hE _).bind fun _ =>
  (ofExcept_keeps hE).bind fun _ =>
  (ensure_keeps hE).bind fun _ =>
  (walletQuantity_keeps hP hE _ _).bind fun _ =>
  ensure_keeps hE

theorem head_runs (hP : Steady n P) (hE : ∀ p, P p → E p) :
    Runs c n call P (head c)
      (fun block p => P p ∧ Read p.reads (.getBlockByNumber .latest) block) E := by
  refine Triple.bind (readObject_runs hP hE _) fun block => ?_
  have hE' : ∀ p, P p ∧ Read p.reads (.getBlockByNumber .latest) block → E p := fun p hp => hE p hp.1
  exact now_keeps.bind fun _ =>
    (ofExcept_keeps hE').bind fun _ =>
    (ensure_keeps hE').bind fun _ =>
    (ofExcept_keeps hE').bind fun _ =>
    (ofExcept_keeps hE').bind fun _ =>
    (ofExcept_keeps hE').bind fun _ =>
    Triple.pure fun _ hp => hp

theorem canonical_runs (hP : Steady n P) (hE : ∀ p, P p → E p) (blockNumber : Nat)
    (blockHash : Bytes32) :
    Runs c n call P (canonical blockNumber blockHash)
      (fun same p => P p ∧ (same = true → ∃ block,
        Read p.reads (.getBlockByNumber (.number blockNumber)) block ∧
          headNumber block = .ok blockNumber ∧ headHash block = .ok blockHash)) E := by
  refine Triple.bind (readObject_runs hP hE _) fun block => ?_
  refine Triple.bind (ofExcept_runs fun p hp => hE p hp.1) fun number => ?_
  refine Triple.bind (ensure_runs fun p hp => hE p hp.1.1) fun _ => ?_
  refine Triple.bind (ofExcept_runs fun p hp => hE p hp.1.1.1) fun found => ?_
  refine Triple.pure ?_
  rintro p ⟨⟨⟨⟨hp, hread⟩, hnumber⟩, rfl⟩, hhash⟩
  refine ⟨hp, fun hsame => ⟨block, hread, hnumber, ?_⟩⟩
  rw [hhash, of_decide_eq_true hsame]

/-! ## One entry -/

/-- What an observation leaves of an entry. -/
structure Kept (c : Payload) (entry observed : DeploymentEntry) (reads : List (Method × Json)) :
    Prop where
  index : observed.index = entry.index
  confirmed : observed.state = .confirmed → Observed c reads observed

/-- What was read of an entry's transaction and receipt, before its block is looked up. -/
structure Included (c : Payload) (reads : List (Method × Json)) (entry : DeploymentEntry)
    (transactionHash : Bytes32) (tx receipt : List (String × Json)) (planned : DeploymentAction)
    (blockNumber : Nat) (blockHash : Bytes32) : Prop where
  known : entry.transactionHash = some transactionHash
  transaction : ∃ json, (.getTransactionByHash transactionHash, json) ∈ reads ∧
    matchesTransaction c json entry.index entry transactionHash = .ok tx
  answered : Read reads (.getTransactionReceipt transactionHash) receipt
  approved : action c entry.index = .ok planned
  number : quantity (field receipt "blockNumber") "eth_getTransactionReceipt.blockNumber" =
    .ok blockNumber
  block : hash (field receipt "blockHash") = .ok blockHash
  matched : checkReceipt c planned transactionHash tx receipt blockNumber blockHash = .ok ()

variable {entry : DeploymentEntry} {transactionHash : Bytes32} {tx receipt : List (String × Json)}
  {planned : DeploymentAction} {blockNumber gasUsed effectiveGasPrice : Nat} {blockHash : Bytes32}
  {reads reads' : List (Method × Json)}

theorem Included.mono
    (h : Included c reads entry transactionHash tx receipt planned blockNumber blockHash)
    (hle : reads <+: reads') :
    Included c reads' entry transactionHash tx receipt planned blockNumber blockHash := by
  obtain ⟨json, hmem, hmatches⟩ := h.transaction
  exact ⟨h.known, ⟨json, hle.subset hmem, hmatches⟩, h.answered.mono hle, h.approved, h.number,
    h.block, h.matched⟩

theorem unconfirmed_kept {state : DeploymentState} (hstate : state ≠ .confirmed) :
    Kept c entry { entry with
      state } reads :=
  ⟨rfl, fun h => absurd h hstate⟩

/-- The entry is confirmed only at a head two blocks above its block. -/
theorem settle_runs (hP : Steady n P) (howner : ∀ p, P p → p.busy = some n) (hE : ∀ p, P p → E p)
    (hpending : isPending tx = false)
    (houtcome : outcome planned entry receipt = .ok (.succeeded gasUsed effectiveGasPrice)) :
    Runs c n call
      (fun p => P p ∧ Included c p.reads entry transactionHash tx receipt planned blockNumber blockHash)
      (settle c entry blockNumber blockHash gasUsed effectiveGasPrice)
      (fun observed p => P p ∧ Kept c entry observed p.reads) E := by
  have hincluded := hP.and_reads howner (F := fun reads =>
    Included c reads entry transactionHash tx receipt planned blockNumber blockHash)
    fun _ _ h hle => h.mono hle
  refine Triple.bind (head_runs hincluded fun p hp => hE p hp.1) fun latest => ?_
  have hhead := hincluded.and_reads (fun p hp => howner p hp.1)
    (F := fun reads => Read reads (.getBlockByNumber .latest) latest) fun _ _ h hle => h.mono hle
  refine Triple.bind (canonical_runs hhead (fun p hp => hE p hp.1.1) blockNumber blockHash)
    fun again => ?_
  refine Triple.ite (fun _ => ?_) fun hagain => ?_
  · refine Triple.pure fun p hp => ⟨hp.1.1.1, unconfirmed_kept ?_⟩
    exact fun h => by cases h
  · refine Triple.bind (ofExcept_runs fun p hp => hE p hp.1.1.1) fun number => ?_
    refine Triple.pure ?_
    rintro p ⟨⟨⟨⟨hp, hincluded⟩, hlatest⟩, hcanonical⟩, hnumber⟩
    refine ⟨hp, rfl, fun hstate => ⟨hstate, transactionHash, blockNumber, blockHash,
      hincluded.known, ?_, hcanonical (Bool.eq_true_of_not_eq_false hagain), latest, number, hlatest,
      hnumber, ?_⟩⟩
    · obtain ⟨json, hmem, hmatches⟩ := hincluded.transaction
      exact ⟨json, tx, hmem, hmatches, receipt, planned, gasUsed, effectiveGasPrice,
        hincluded.answered, hincluded.approved, hincluded.number, hincluded.block, hincluded.matched,
        houtcome, hpending⟩
    · dsimp only at hstate
      split at hstate
      · next hdeep => exact hdeep
      · cases hstate

theorem observeReceipt_runs (hP : Steady n P) (howner : ∀ p, P p → p.busy = some n)
    (hE : ∀ p, P p → E p) (hknown : entry.transactionHash = some transactionHash)
    (receiptValue : Json) :
    Runs c n call
      (fun p => (P p ∧ (.getTransactionReceipt transactionHash, receiptValue) ∈ p.reads) ∧
        ∃ json, (.getTransactionByHash transactionHash, json) ∈ p.reads ∧
          matchesTransaction c json entry.index entry transactionHash = .ok tx)
      (observeReceipt c entry transactionHash tx receiptValue)
      (fun observed p => P p ∧ Kept c entry observed p.reads) E := by
  refine Triple.bind (ofExcept_runs fun p hp => hE p hp.1.1) fun receipt => ?_
  refine Triple.bind (ofExcept_runs fun p hp => hE p hp.1.1.1) fun planned => ?_
  refine Triple.bind (ofExcept_runs fun p hp => hE p hp.1.1.1.1) fun blockNumber => ?_
  refine Triple.bind (ofExcept_runs fun p hp => hE p hp.1.1.1.1.1) fun blockHash => ?_
  refine Triple.bind (ofExcept_runs fun p hp => hE p hp.1.1.1.1.1.1) fun _ => ?_
  refine Triple.pre (P := fun p => P p ∧
    Included c p.reads entry transactionHash tx receipt planned blockNumber blockHash) ?_ ?_
  · have hincluded := hP.and_reads howner (F := fun reads =>
      Included c reads entry transactionHash tx receipt planned blockNumber blockHash)
      fun _ _ h hle => h.mono hle
    refine Triple.bind (canonical_runs hincluded (fun p hp => hE p hp.1) blockNumber blockHash)
      fun first => ?_
    refine Triple.ite (fun _ => ?_) fun _ => ?_
    · refine Triple.pure fun p hp => ⟨hp.1.1, unconfirmed_kept ?_⟩
      exact fun h => by cases h
    · refine Triple.bind (ofExcept_runs fun p hp => hE p hp.1.1) fun result => ?_
      cases result with
      | reverted =>
          refine Triple.pure fun p hp => ⟨hp.1.1.1, unconfirmed_kept ?_⟩
          exact fun h => by cases h
      | succeeded gasUsed effectiveGasPrice =>
          refine Triple.ite (fun _ => ?_) fun hpending => ?_
          · refine Triple.pure fun p hp => ⟨hp.1.1.1, unconfirmed_kept ?_⟩
            exact fun h => by cases h
          · intro p hp
            exact settle_runs hP howner hE (Bool.eq_false_iff.mpr hpending) hp.2 p hp.1.1
  · rintro p ⟨⟨⟨⟨⟨⟨⟨hp, hreceipt⟩, htransaction⟩, hobject⟩, happroved⟩, hnumber⟩, hblock⟩, hmatched⟩
    exact ⟨hp, hknown, htransaction, ⟨receiptValue, hreceipt, hobject⟩, happroved, hnumber, hblock,
      hmatched⟩

theorem observe_runs (hP : Steady n P) (howner : ∀ p, P p → p.busy = some n) (hE : ∀ p, P p → E p)
    (entry : DeploymentEntry) :
    Runs c n call P (observe c entry) (fun observed p => P p ∧ Kept c entry observed p.reads) E := by
  unfold observe
  split
  · refine Triple.pure fun p hp => ⟨hp, unconfirmed_kept ?_⟩
    exact fun h => by cases h
  · next transactionHash hknown =>
    refine Triple.bind (read_runs hP hE _) fun transaction => ?_
    have hfirst := hP.and_reads howner
      (F := fun reads => (Method.getTransactionByHash transactionHash, transaction) ∈ reads)
      fun _ _ h hle => hle.subset h
    refine Triple.bind (read_runs hfirst (fun p hp => hE p hp.1) _) fun receiptValue => ?_
    refine Triple.ite (fun _ => ?_) fun _ => ?_
    · refine Triple.pure fun p hp => ⟨hp.1.1, unconfirmed_kept ?_⟩
      exact fun h => by cases h
    · refine Triple.bind (ofExcept_runs fun p hp => hE p hp.1.1) fun tx => ?_
      refine Triple.ite (fun _ => ?_) fun _ => ?_
      · refine Triple.pure fun p hp => ⟨hp.1.1.1, unconfirmed_kept ?_⟩
        split <;> exact fun h => by cases h
      · refine (observeReceipt_runs hP howner hE hknown receiptValue).pre fun p hp => ?_
        exact ⟨⟨hp.1.1.1, hp.1.2⟩, transaction, hp.1.1.2, hp.2⟩

end Programs

end DeploymentWallet
end AlphaForge
