/-
What the calls of a deployment session promise each other.

While one of them holds `busy`, the journal and what was saved change by that call
alone; the others only read.  `Guar` is what a call may do in one step, and a send is
one of these steps only when `Authorized` holds: the intent has been saved, every
earlier entry was seen confirmed since the call began, and every earlier send was of
a lower index.  `Inv` holds between all steps and says so of all sends.
-/
import AlphaForge.Client.DeploymentWallet.SendNext

namespace AlphaForge
namespace DeploymentWallet

open Evm Async

/-! ## Confirmations -/

/-- An answer that an object was read from. -/
def Read (reads : List (Method × Json)) (method : Method) (fields : List (String × Json)) : Prop :=
  ∃ json, (method, json) ∈ reads ∧ object json = .ok fields

/-- The answers under which an entry counts as confirmed: its transaction, the receipt
of it, the block of the receipt, and a head two blocks further on. -/
structure Confirmation (c : Payload) (reads : List (Method × Json)) (entry : DeploymentEntry)
    (transactionHash : Bytes32) (blockNumber : Nat) (blockHash : Bytes32) : Prop where
  transaction : ∃ json tx, (.getTransactionByHash transactionHash, json) ∈ reads ∧
    matchesTransaction c json entry.index entry transactionHash = .ok tx ∧
    ∃ receipt planned gasUsed effectiveGasPrice,
      Read reads (.getTransactionReceipt transactionHash) receipt ∧
      action c entry.index = .ok planned ∧
      quantity (field receipt "blockNumber") "eth_getTransactionReceipt.blockNumber" =
        .ok blockNumber ∧
      hash (field receipt "blockHash") = .ok blockHash ∧
      checkReceipt c planned transactionHash tx receipt blockNumber blockHash = .ok () ∧
      outcome planned entry receipt = .ok (.succeeded gasUsed effectiveGasPrice) ∧
      isPending tx = false
  canonical : ∃ block, Read reads (.getBlockByNumber (.number blockNumber)) block ∧
    headNumber block = .ok blockNumber ∧ headHash block = .ok blockHash
  head : ∃ block number, Read reads (.getBlockByNumber .latest) block ∧
    headNumber block = .ok number ∧ blockNumber + 2 ≤ number

def Observed (c : Payload) (reads : List (Method × Json)) (entry : DeploymentEntry) : Prop :=
  entry.state = .confirmed ∧ ∃ transactionHash blockNumber blockHash,
    entry.transactionHash = some transactionHash ∧
    Confirmation c reads entry transactionHash blockNumber blockHash

theorem Read.mono {reads reads' : List (Method × Json)} {method : Method}
    {fields : List (String × Json)} (h : Read reads method fields) (hle : reads <+: reads') :
    Read reads' method fields := by
  obtain ⟨json, hmem, hobject⟩ := h
  exact ⟨json, hle.subset hmem, hobject⟩

theorem Observed.mono {c : Payload} {reads reads' : List (Method × Json)} {entry : DeploymentEntry}
    (h : Observed c reads entry) (hle : reads <+: reads') : Observed c reads' entry := by
  obtain ⟨hstate, transactionHash, blockNumber, blockHash, hhash, htx, hcanonical, hhead⟩ := h
  obtain ⟨json, tx, hjson, hmatches, receipt, planned, gas, price, hreceipt, hrest⟩ := htx
  obtain ⟨block, hblock, hnumber⟩ := hcanonical
  obtain ⟨latest, number, hlatest, hnumber'⟩ := hhead
  exact ⟨hstate, transactionHash, blockNumber, blockHash, hhash,
    ⟨json, tx, hle.subset hjson, hmatches, receipt, planned, gas, price, hreceipt.mono hle, hrest⟩,
    ⟨block, hblock.mono hle, hnumber⟩, ⟨latest, number, hlatest.mono hle, hnumber'⟩⟩

/-! ## Sends -/

/-- A send of the approved action, with its intent saved and everything before it seen
confirmed. -/
structure Proper (c : Payload) (e : Sent) (journal : DeploymentJournal) : Prop where
  saved : e.saved = some journal
  approved : ∃ action, c.actions[e.transaction.nonce]? = some action ∧
    e.transaction.target = action.unsigned.target ∧ e.transaction.data = action.unsigned.data ∧
    e.transaction.value = action.unsigned.value
  intent : ∃ entry, journal.entries[e.transaction.nonce]? = some entry ∧
    entry.index = e.transaction.nonce ∧ entry.state = .intent
  confirmed : ∀ j < e.transaction.nonce, ∃ entry, journal.entries[j]? = some entry ∧
    entry.index = j ∧ Observed c e.reads entry

structure Authorized (c : Payload) (p : Page) (e : Sent) : Prop where
  saved : e.saved = p.saved
  reads : e.reads = p.reads
  proper : ∃ journal, Proper c e journal
  below : e.transaction.nonce < p.journal.entries.length
  earlier : ∀ e' ∈ p.sent, e'.transaction.nonce < e.transaction.nonce

/-! ## Steps -/

/-- Nothing but answers was added. -/
structure Still (p p' : Page) : Prop where
  constructed : p'.constructed = p.constructed
  busy : p'.busy = p.busy
  journal : p'.journal = p.journal
  storageFailed : p'.storageFailed = p.storageFailed
  saved : p'.saved = p.saved
  sent : p'.sent = p.sent
  reads : p.reads <+: p'.reads

theorem Still.refl (p : Page) : Still p p := ⟨rfl, rfl, rfl, rfl, rfl, rfl, List.prefix_refl _⟩

theorem Still.trans {p p' p'' : Page} (h : Still p p') (h' : Still p' p'') : Still p p'' :=
  ⟨h'.constructed.trans h.constructed, h'.busy.trans h.busy, h'.journal.trans h.journal,
    h'.storageFailed.trans h.storageFailed, h'.saved.trans h.saved, h'.sent.trans h.sent,
    h.reads.trans h'.reads⟩

/-- What a call relies on while it waits. -/
def Rely (n : Nat) (p p' : Page) : Prop := p.busy = some n → Still p p'

inductive Guar (c : Payload) (n : Nat) (call : Call) (p p' : Page) : Prop where
  | still (h : Still p p')
  | construct (hnone : p.constructed = false)
      (h : p' = { p with
        constructed := true, journal := p.saved.getD ⟨c.sha256, []⟩, storageFailed := false,
        lastObservedHash := none, lastBalance := none })
  | acquire (hconstructed : p.constructed = true) (hfree : p.busy = none)
      (h : p' = { p with
        busy := some n, reads := [] })
  | release (howner : p.busy = some n) (h : p' = { p with
      busy := none })
  | persist (journal : DeploymentJournal) (howner : p.busy = some n)
      (hvalid : journalValid c journal) (hlonger : p.journal.entries.length ≤ journal.entries.length)
      (h : p' = { p with
        saved := some journal, journal })
  | failed (howner : p.busy = some n) (h : p' = { p with
      storageFailed := true })
  | send (e : Sent) (howner : p.busy = some n) (hcall : call = .sendNext) (h : Authorized c p e)
      (heq : p' = { p with
        sent := p.sent ++ [e] })

/-- The journal of a session is the one that was saved last, and whatever was sent is in
it. -/
structure Inv (c : Payload) (p : Page) : Prop where
  owned : ∀ n, p.busy = some n → p.constructed = true
  journal : p.constructed = true → p.journal = p.saved.getD ⟨c.sha256, []⟩
  valid : ∀ journal, p.saved = some journal → journalValid c journal
  sent : ∀ e ∈ p.sent, ∃ journal, Proper c e journal
  below : ∀ e ∈ p.sent, e.transaction.nonce < (p.saved.getD ⟨c.sha256, []⟩).entries.length
  increasing : p.sent.Pairwise fun e e' => e.transaction.nonce < e'.transaction.nonce

variable {c : Payload} {n : Nat} {call : Call} {p p' : Page}

theorem Guar.kept (h : Guar c n call p p') (hI : Inv c p) : Inv c p' := by
  cases h with
  | still h =>
      obtain ⟨hconstructed, hbusy, hjournal, _, hsaved, hsent, _⟩ := h
      refine ⟨?_, ?_, ?_, ?_, ?_, ?_⟩
      · rw [hbusy, hconstructed]
        exact hI.owned
      · rw [hconstructed, hjournal, hsaved]
        exact hI.journal
      · rw [hsaved]
        exact hI.valid
      · rw [hsent]
        exact hI.sent
      · rw [hsent, hsaved]
        exact hI.below
      · rw [hsent]
        exact hI.increasing
  | construct hnone h =>
      rw [h]
      exact ⟨fun _ _ => rfl, fun _ => rfl, hI.valid, hI.sent, hI.below, hI.increasing⟩
  | acquire hconstructed hfree h =>
      rw [h]
      exact ⟨fun _ _ => hconstructed, hI.journal, hI.valid, hI.sent, hI.below, hI.increasing⟩
  | release howner h =>
      rw [h]
      exact ⟨fun _ hbusy => (by cases hbusy), hI.journal, hI.valid, hI.sent, hI.below, hI.increasing⟩
  | persist journal howner hvalid hlonger h =>
      rw [h]
      refine ⟨hI.owned, fun _ => rfl, fun saved hsaved => ?_, hI.sent, fun e he => ?_, hI.increasing⟩
      · rw [← Option.some.inj hsaved]
        exact hvalid
      · have hlt := hI.below e he
        rw [← hI.journal (hI.owned n howner)] at hlt
        exact Nat.lt_of_lt_of_le hlt hlonger
  | failed howner h =>
      rw [h]
      exact ⟨hI.owned, hI.journal, hI.valid, hI.sent, hI.below, hI.increasing⟩
  | send e howner hcall hauthorized heq =>
      rw [heq]
      refine ⟨hI.owned, hI.journal, hI.valid, fun e' he' => ?_, fun e' he' => ?_, ?_⟩
      · rcases List.mem_append.mp he' with he' | he'
        · exact hI.sent e' he'
        · rw [List.mem_singleton.mp he']
          exact hauthorized.proper
      · rcases List.mem_append.mp he' with he' | he'
        · exact hI.below e' he'
        · rw [List.mem_singleton.mp he', ← hI.journal (hI.owned n howner)]
          exact hauthorized.below
      · rw [List.pairwise_append]
        refine ⟨hI.increasing, List.pairwise_singleton _ _, fun e' he' e'' he'' => ?_⟩
        rw [List.mem_singleton.mp he'']
        exact hauthorized.earlier e' he'

/-- A call that holds `busy` hears of nothing but answers. -/
theorem Guar.heard {m : Nat} (hne : n ≠ m) (hI : Inv c p) (h : Guar c n call p p') :
    Rely m p p' := by
  intro hbusy
  have hother : p.busy ≠ some n := by
    rw [hbusy]
    exact fun heq => hne (Option.some.inj heq).symm
  cases h with
  | still h => exact h
  | construct hnone h =>
      rw [hI.owned m hbusy] at hnone
      cases hnone
  | acquire hconstructed hfree h =>
      rw [hbusy] at hfree
      cases hfree
  | release howner h => exact absurd howner hother
  | persist journal howner hvalid hlonger h => exact absurd howner hother
  | failed howner h => exact absurd howner hother
  | send e howner hcall hauthorized heq => exact absurd howner hother

end DeploymentWallet
end AlphaForge
