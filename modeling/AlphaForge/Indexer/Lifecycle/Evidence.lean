/-
The evidence an operation carries in each of its states.

`validateOperationEvidence` of `chain-store.ts` is written apart from the steps of
`lifecycle.ts`: it says, state by state, which fields are set and to what.  Every
operation that comes from `createOperation` by accepted steps passes it, and the
fields that say what the operation is stay as they were created.
-/
import AlphaForge.Indexer.Lifecycle

namespace AlphaForge
namespace Lifecycle

open Evm
open ChainStore (HexData TransactionState)

def validOperationId (value : String) : Bool :=
  match value.toList with
  | [] => false
  | d :: ds =>
      d.isAlphanum && ds.length ≤ 127 && ds.all (fun x => x.isAlphanum || x = '_' || x = '-')

structure OperationInput where
  operationId : String
  chainId : Int
  owner : Address
  target : Address
  calldata : Option HexData

def createOperation (input : OperationInput) : Except String ChainOperation := do
  ensure (validOperationId input.operationId = true) "INVALID_OPERATION_ID"
  ensure (isSafeInteger input.chainId ∧ 0 < input.chainId) "INVALID_CHAIN_ID"
  return {
    operationId := input.operationId, chainId := input.chainId, owner := input.owner,
    target := input.target, calldata := input.calldata, state := .awaitingSignature,
    txHash := none, submittedAt := none, blockNumber := none, blockHash := none,
    transactionIndex := none, receiptStatus := none, confirmations := 0,
    replacementTxHash := none, canonical := false, reconciled := false, confirmedAt := none,
    errorCode := none }

namespace ChainOperation

def noBlock (operation : ChainOperation) : Bool :=
  operation.blockNumber.isNone && operation.blockHash.isNone &&
    operation.transactionIndex.isNone && operation.receiptStatus.isNone

def successfulBlock (operation : ChainOperation) : Bool :=
  operation.blockNumber.isSome && operation.blockHash.isSome &&
    operation.receiptStatus = some .success

def revertedBlock (operation : ChainOperation) : Bool :=
  operation.blockNumber.isSome && operation.blockHash.isSome &&
    operation.receiptStatus = some .reverted

def pendingOrDisplacedReceipt (operation : ChainOperation) : Bool :=
  (operation.noBlock && operation.confirmations = 0) ||
    (operation.blockNumber.isSome && operation.blockHash.isSome && operation.receiptStatus.isSome)

def basePending (operation : ChainOperation) : Bool :=
  operation.confirmedAt.isNone && !operation.canonical && !operation.reconciled

end ChainOperation

section Evidence

variable (validTime : String → Bool)

def ChainOperation.submitted (operation : ChainOperation) : Bool :=
  operation.txHash.isSome && operation.submittedAt.any validTime

/-- The `switch` of `validateOperationEvidence`. -/
def validEvidence (operation : ChainOperation) : Bool :=
  match operation.state with
  | .awaitingSignature =>
      operation.txHash.isNone && operation.submittedAt.isNone && operation.noBlock &&
        operation.confirmations = 0 && operation.replacementTxHash.isNone &&
        operation.basePending && operation.errorCode.isNone
  | .submitted =>
      operation.submitted validTime && operation.noBlock && operation.confirmations = 0 &&
        operation.replacementTxHash.isNone && operation.basePending && operation.errorCode.isNone
  | .mined =>
      operation.submitted validTime && operation.successfulBlock &&
        operation.confirmations = 0 && operation.replacementTxHash.isNone &&
        operation.canonical && !operation.reconciled && operation.confirmedAt.isNone &&
        operation.errorCode.isNone
  | .confirming =>
      operation.submitted validTime && operation.successfulBlock &&
        operation.replacementTxHash.isNone && operation.canonical &&
        operation.confirmedAt.isNone && operation.errorCode.isNone
  | .confirmed =>
      operation.submitted validTime && operation.successfulBlock &&
        operation.replacementTxHash.isNone && operation.canonical && operation.reconciled &&
        operation.confirmedAt.any validTime && operation.errorCode.isNone
  | .rejected =>
      operation.txHash.isNone && operation.submittedAt.isNone && operation.noBlock &&
        operation.confirmations = 0 && operation.replacementTxHash.isNone &&
        operation.basePending && operation.errorCode = some .walletRejected
  | .reverted =>
      operation.submitted validTime && operation.revertedBlock &&
        operation.replacementTxHash.isNone && operation.canonical && !operation.reconciled &&
        operation.confirmedAt.isNone && operation.errorCode = some .transactionReverted
  | .replaced =>
      operation.submitted validTime && operation.pendingOrDisplacedReceipt &&
        operation.replacementTxHash.isSome && operation.basePending &&
        operation.errorCode = some .transactionReplaced
  | .dropped =>
      operation.submitted validTime && operation.pendingOrDisplacedReceipt &&
        operation.replacementTxHash.isNone && operation.basePending &&
        operation.errorCode = some .transactionDropped
  | .reorged =>
      operation.submitted validTime && operation.blockNumber.isSome &&
        operation.blockHash.isSome && operation.receiptStatus.isSome &&
        operation.replacementTxHash.isNone && operation.basePending &&
        operation.errorCode = some .chainReorg
  | .reconciliationFailed =>
      operation.submitted validTime && operation.successfulBlock &&
        operation.replacementTxHash.isNone && operation.canonical && !operation.reconciled &&
        operation.confirmedAt.isNone &&
        (operation.errorCode = some .eventEvidenceMismatch ∨
          operation.errorCode = some .contractStateMismatch)

def validateOperationEvidence (operation : ChainOperation) : Except String Unit :=
  ensure (validEvidence validTime operation = true ∧
    transactionIndexValid operation.transactionIndex) "INVALID_OPERATION_EVIDENCE"

end Evidence

/-! ## What a step keeps -/

variable {validTime : String → Bool} {current next : ChainOperation} {update : OperationTransition}

/-- What the evidence of an operation does not say: its name, its chain and the ranges
of its numbers. -/
structure WellFormed (operation : ChainOperation) : Prop where
  operationId : validOperationId operation.operationId = true
  chainId : isSafeInteger operation.chainId ∧ 0 < operation.chainId
  confirmations : isSafeInteger operation.confirmations ∧ 0 ≤ operation.confirmations
  blockNumber : ∀ n ∈ operation.blockNumber, 0 ≤ n

theorem createOperation_eq_ok {input : OperationInput} {operation : ChainOperation}
    (h : createOperation input = .ok operation) :
    validateOperationEvidence validTime operation = .ok () ∧ WellFormed operation ∧
      operation.txHash = none := by
  simp only [createOperation, bind_eq_ok, ensure_eq_ok, pure_eq_ok] at h
  obtain ⟨_, hid, _, hchain, rfl⟩ := h
  refine ⟨?_, ⟨hid, hchain, ?_, ?_⟩, rfl⟩
  · rw [validateOperationEvidence, ensure_eq_ok]
    exact ⟨rfl, trivial⟩
  · have hzero : isSafeInteger 0 := by decide
    exact ⟨hzero, Int.le_refl 0⟩
  · intro n hn
    cases hn

/-- The states from which a step leads to another. -/
def sources : TransactionState → List TransactionState
  | .awaitingSignature => []
  | .submitted => [.awaitingSignature]
  | .mined => [.submitted, .reorged]
  | .confirming => [.mined, .confirming, .reconciliationFailed]
  | .confirmed => [.confirming]
  | .rejected => [.awaitingSignature]
  | .reverted => [.submitted, .reorged]
  | .replaced => [.submitted, .reorged]
  | .dropped => [.submitted, .reorged]
  | .reorged => [.mined, .confirming, .confirmed, .reverted, .reconciliationFailed]
  | .reconciliationFailed => [.mined, .confirming]

theorem mem_transitions_iff (a b : TransactionState) : b ∈ transitions a ↔ a ∈ sources b := by
  cases a <;> cases b <;> decide

attribute [local simp] validEvidence ChainOperation.submitted ChainOperation.noBlock
  ChainOperation.successfulBlock ChainOperation.revertedBlock
  ChainOperation.pendingOrDisplacedReceipt ChainOperation.basePending

theorem transition_evidence (h : transitionOperation validTime current update = .ok next)
    (hcurrent : validateOperationEvidence validTime current = .ok ()) :
    validateOperationEvidence validTime next = .ok () := by
  rw [validateOperationEvidence, ensure_eq_ok] at hcurrent ⊢
  obtain ⟨hevidence, hindex⟩ := hcurrent
  obtain ⟨hallowed, happly⟩ := transitionOperation_eq_ok.mp h
  clear h
  rw [mem_transitions_iff] at hallowed
  cases update with
  | submitted txHash submittedAt =>
      simp only [applyTransition, bind_eq_ok, ensure_eq_ok, pure_eq_ok] at happly
      obtain ⟨_, htime, rfl⟩ := happly
      simp only [OperationTransition.state, sources, List.mem_singleton] at hallowed
      simp_all
  | rejected =>
      simp only [applyTransition, pure_eq_ok] at happly
      subst happly
      simp only [OperationTransition.state, sources, List.mem_singleton] at hallowed
      simp_all
  | mined blockNumber blockHash transactionIndex =>
      simp only [applyTransition, bind_eq_ok, ensure_eq_ok, pure_eq_ok] at happly
      obtain ⟨_, _, _, hnext, rfl⟩ := happly
      simp only [OperationTransition.state, sources, List.mem_cons, List.not_mem_nil,
        or_false] at hallowed
      rcases hallowed with hstate | hstate
      · simp_all
      · simp_all
  | reverted blockNumber blockHash transactionIndex =>
      simp only [applyTransition, bind_eq_ok, ensure_eq_ok, pure_eq_ok] at happly
      obtain ⟨_, _, _, hnext, rfl⟩ := happly
      simp only [OperationTransition.state, sources, List.mem_cons, List.not_mem_nil,
        or_false] at hallowed
      rcases hallowed with hstate | hstate
      · simp_all
      · simp_all
  | confirming confirmations reconciled =>
      simp only [applyTransition, bind_eq_ok, ensure_eq_ok, pure_eq_ok] at happly
      obtain ⟨_, _, rfl⟩ := happly
      simp only [OperationTransition.state, sources, List.mem_cons, List.not_mem_nil,
        or_false] at hallowed
      rcases hallowed with hstate | hstate | hstate
      · simp_all
      · simp_all
      · simp_all
  | confirmed confirmations confirmedAt reconciled =>
      simp only [applyTransition, bind_eq_ok, ensure_eq_ok, pure_eq_ok] at happly
      obtain ⟨_, hreconciled, _, _, _, htime, rfl⟩ := happly
      simp only [OperationTransition.state, sources, List.mem_singleton] at hallowed
      simp_all
  | replaced replacementTxHash =>
      simp only [applyTransition, bind_eq_ok, ensure_eq_ok, pure_eq_ok] at happly
      obtain ⟨_, hhash, _, _, rfl⟩ := happly
      simp only [OperationTransition.state, sources, List.mem_cons, List.not_mem_nil,
        or_false] at hallowed
      rcases hallowed with hstate | hstate
      · simp_all [Option.isSome_iff_ne_none]
      · simp_all [Option.isSome_iff_ne_none]
  | dropped =>
      simp only [applyTransition, pure_eq_ok] at happly
      subst happly
      simp only [OperationTransition.state, sources, List.mem_cons, List.not_mem_nil,
        or_false] at hallowed
      rcases hallowed with hstate | hstate
      · simp_all
      · simp_all
  | reorged =>
      simp only [applyTransition, pure_eq_ok] at happly
      subst happly
      simp only [OperationTransition.state, sources, List.mem_cons, List.not_mem_nil,
        or_false] at hallowed
      rcases hallowed with hstate | hstate | hstate | hstate | hstate
      · simp_all
      · simp_all
      · simp_all
      · simp_all
      · simp_all
  | reconciliationFailed errorCode =>
      simp only [applyTransition, pure_eq_ok] at happly
      subst happly
      simp only [OperationTransition.state, sources, List.mem_cons, List.not_mem_nil,
        or_false] at hallowed
      have hcode : errorCode.errorCode = .eventEvidenceMismatch ∨
          errorCode.errorCode = .contractStateMismatch := by
        cases errorCode <;> decide
      rcases hallowed with hstate | hstate
      · simp_all
      · simp_all

theorem transition_wellFormed (h : transitionOperation validTime current update = .ok next)
    (hcurrent : WellFormed current) : WellFormed next := by
  obtain ⟨hid, hchain, hcount, hblock⟩ := hcurrent
  obtain ⟨_, happly⟩ := transitionOperation_eq_ok.mp h
  cases update with
  | mined blockNumber blockHash transactionIndex =>
      simp only [applyTransition, bind_eq_ok, ensure_eq_ok, pure_eq_ok] at happly
      obtain ⟨_, hnumber, _, _, rfl⟩ := happly
      have hzero : isSafeInteger 0 := by decide
      exact ⟨hid, hchain, ⟨hzero, Int.le_refl 0⟩, fun n hn => Option.some.inj hn ▸ hnumber⟩
  | reverted blockNumber blockHash transactionIndex =>
      simp only [applyTransition, bind_eq_ok, ensure_eq_ok, pure_eq_ok] at happly
      obtain ⟨_, hnumber, _, _, rfl⟩ := happly
      have hzero : isSafeInteger 0 := by decide
      exact ⟨hid, hchain, ⟨hzero, Int.le_refl 0⟩, fun n hn => Option.some.inj hn ▸ hnumber⟩
  | confirming confirmations reconciled =>
      simp only [applyTransition, bind_eq_ok, ensure_eq_ok, pure_eq_ok] at happly
      obtain ⟨_, ⟨hsafe, hle⟩, rfl⟩ := happly
      exact ⟨hid, hchain, ⟨hsafe, Int.le_trans hcount.2 hle⟩, hblock⟩
  | confirmed confirmations confirmedAt reconciled =>
      simp only [applyTransition, bind_eq_ok, ensure_eq_ok, pure_eq_ok] at happly
      obtain ⟨_, _, _, ⟨hsafe, hle⟩, _, _, rfl⟩ := happly
      exact ⟨hid, hchain, ⟨hsafe, Int.le_trans hcount.2 hle⟩, hblock⟩
  | submitted txHash submittedAt =>
      simp only [applyTransition, bind_eq_ok, ensure_eq_ok, pure_eq_ok] at happly
      obtain ⟨_, _, rfl⟩ := happly
      exact ⟨hid, hchain, hcount, hblock⟩
  | replaced replacementTxHash =>
      simp only [applyTransition, bind_eq_ok, ensure_eq_ok, pure_eq_ok] at happly
      obtain ⟨_, _, _, _, rfl⟩ := happly
      exact ⟨hid, hchain, hcount, hblock⟩
  | rejected | dropped | reorged | reconciliationFailed =>
      simp only [applyTransition, pure_eq_ok] at happly
      subst happly
      exact ⟨hid, hchain, hcount, hblock⟩

/-- Two records of one operation, the earlier first: a transaction hash that is set
stays. -/
structure SameIdentity (earlier later : ChainOperation) : Prop where
  operationId : later.operationId = earlier.operationId
  chainId : later.chainId = earlier.chainId
  owner : later.owner = earlier.owner
  target : later.target = earlier.target
  calldata : later.calldata = earlier.calldata
  txHash : ∀ hash, earlier.txHash = some hash → later.txHash = some hash

theorem SameIdentity.refl (operation : ChainOperation) : SameIdentity operation operation :=
  ⟨rfl, rfl, rfl, rfl, rfl, fun _ h => h⟩

theorem SameIdentity.trans {a b c : ChainOperation} (hab : SameIdentity a b)
    (hbc : SameIdentity b c) : SameIdentity a c :=
  ⟨hbc.operationId.trans hab.operationId, hbc.chainId.trans hab.chainId,
    hbc.owner.trans hab.owner, hbc.target.trans hab.target, hbc.calldata.trans hab.calldata,
    fun hash h => hbc.txHash hash (hab.txHash hash h)⟩

/-- The hash is set by the one step out of `AWAITING_SIGNATURE`, where there is none. -/
theorem applyTransition_txHash (h : applyTransition validTime current update = .ok next)
    (hupdate : update.state ≠ .submitted) : next.txHash = current.txHash := by
  cases update with
  | submitted txHash submittedAt => exact absurd rfl hupdate
  | mined _ _ _ | reverted _ _ _ | replaced _ =>
      simp only [applyTransition, bind_eq_ok, ensure_eq_ok, pure_eq_ok] at h
      obtain ⟨_, _, _, _, rfl⟩ := h
      rfl
  | confirming _ _ =>
      simp only [applyTransition, bind_eq_ok, ensure_eq_ok, pure_eq_ok] at h
      obtain ⟨_, _, rfl⟩ := h
      rfl
  | confirmed _ _ _ =>
      simp only [applyTransition, bind_eq_ok, ensure_eq_ok, pure_eq_ok] at h
      obtain ⟨_, _, _, _, _, _, rfl⟩ := h
      rfl
  | rejected | dropped | reorged | reconciliationFailed =>
      simp only [applyTransition, pure_eq_ok] at h
      subst h
      rfl

theorem transition_identity (h : transitionOperation validTime current update = .ok next)
    (hcurrent : validateOperationEvidence validTime current = .ok ()) :
    SameIdentity current next := by
  obtain ⟨hallowed, happly⟩ := transitionOperation_eq_ok.mp h
  obtain ⟨_, hid, hchain, howner, htarget, hcalldata⟩ := applyTransition_state happly
  refine ⟨hid, hchain, howner, htarget, hcalldata, fun hash hhash => ?_⟩
  by_cases hupdate : update.state = .submitted
  · rw [mem_transitions_iff, hupdate] at hallowed
    have hstate : current.state = .awaitingSignature := List.mem_singleton.mp hallowed
    rw [validateOperationEvidence, ensure_eq_ok] at hcurrent
    have hnone : current.txHash = none := by simp_all
    rw [hnone] at hhash
    cases hhash
  · rw [applyTransition_txHash happly hupdate]
    exact hhash

/-! ## Histories -/

/-- One update of an operation, as a step of a machine. -/
def lifecycleStep (validTime : String → Bool) (update : OperationTransition)
    (operation : ChainOperation) : Except String ChainOperation :=
  transitionOperation validTime operation update

/-- Evidence and ranges, together the invariant of an operation. -/
structure Sound (validTime : String → Bool) (operation : ChainOperation) : Prop where
  evidence : validateOperationEvidence validTime operation = .ok ()
  wellFormed : WellFormed operation

theorem Sound.transition (hcurrent : Sound validTime current)
    (h : transitionOperation validTime current update = .ok next) : Sound validTime next :=
  ⟨transition_evidence h hcurrent.evidence, transition_wellFormed h hcurrent.wellFormed⟩

theorem created_sound {input : OperationInput} {operation : ChainOperation}
    (h : createOperation input = .ok operation) : Sound validTime operation := by
  have hcreated : validateOperationEvidence validTime operation = .ok () ∧
      WellFormed operation ∧ operation.txHash = none := createOperation_eq_ok h
  exact ⟨hcreated.1, hcreated.2.1⟩

theorem confirmed_reconciled (h : Sound validTime current) (hstate : current.state = .confirmed) :
    current.reconciled = true := by
  have hevidence := h.evidence
  rw [validateOperationEvidence, ensure_eq_ok] at hevidence
  simp_all

/-- Whatever updates follow the creation of an operation, refused ones in between, its
evidence is valid, it is the same operation, and it was reconciled if it is confirmed. -/
theorem history_sound {input : OperationInput} {operation : ChainOperation}
    (hcreated : createOperation input = .ok operation) (updates : List OperationTransition) :
    let current := Machine.exec (lifecycleStep validTime) operation updates
    validateOperationEvidence validTime current = .ok () ∧ SameIdentity operation current ∧
      (current.state = .confirmed → current.reconciled = true) := by
  have hstart : Sound validTime operation ∧ SameIdentity operation operation :=
    ⟨created_sound hcreated, SameIdentity.refl operation⟩
  have hstep : ∀ update before after, Sound validTime before ∧ SameIdentity operation before →
      lifecycleStep validTime update before = .ok after →
      Sound validTime after ∧ SameIdentity operation after := by
    intro update before after hbefore hstep
    exact ⟨hbefore.1.transition hstep,
      hbefore.2.trans (transition_identity hstep hbefore.1.evidence)⟩
  have hend := Machine.exec_invariant hstep hstart updates
  exact ⟨hend.1.evidence, hend.2, confirmed_reconciled hend.1⟩

theorem history_sound_confirmed : ∃ operation,
    createOperation ⟨"op", 46630, 3, 7, none⟩ = .ok operation ∧
    let current := Machine.exec (lifecycleStep fun _ => true) operation
      [.submitted 9 "now", .rejected, .mined 5 2 none, .reorged, .mined 6 4 none,
        .confirming 1 (some true), .confirmed 2 "now" true]
    current.state = .confirmed ∧ current.reconciled = true := by
  obtain ⟨operation, hcreated⟩ : ∃ operation,
      createOperation ⟨"op", 46630, 3, 7, none⟩ = .ok operation := ⟨_, rfl⟩
  refine ⟨operation, hcreated, ?_, (history_sound hcreated _).2.2 ?_⟩
  all_goals
    cases hcreated
    rfl

end Lifecycle
end AlphaForge
