/-
When the order journal opens again.

Opening checks every row and every outcome.  The rows always pass, and the text of
a validated intent is far below its limit.  An outcome was admitted by the length of
its evidence, and is read back by the length of its JSON text, which a quote or a
control character makes longer: the journal opens exactly when these texts fit.
-/
import AlphaForge.Machine.Run
import AlphaForge.Testnet.OrderJournal.Rows
import Mathlib.Data.List.Induction

namespace AlphaForge
namespace OrderJournal

open Evm Machine

/-! ## Lengths -/

/-- A character that stands for itself in a string literal, in one unit. -/
def Plain (d : Char) : Prop := Json.escape d = [d] ∧ units [d] = 1

instance (d : Char) : Decidable (Plain d) := by
  unfold Plain
  infer_instance

/-! ### The text of an intent -/

/-! ## Rows and outcomes that pass -/

section Reopen

variable {ethers : Ethers}

/-- The last outcome of each order. -/
def latest (outcomes : List OutcomeRow) : OrderedMap String (Conclusion × String) :=
  outcomes.foldl (fun found row => found.set row.payload.id (row.payload.state, row.payload.evidence)) []

/-- What the state of a row says about its last outcome. -/
def conclusionOf (row : OrderRow) : Option (Conclusion × String) :=
  match row.state with
  | .reconciled => row.evidence.map fun evidence => (.reconciled, evidence)
  | .reverted => row.evidence.map fun evidence => (.reverted, evidence)
  | .reorged => row.evidence.map fun evidence => (.reorged, evidence)
  | _ => none

/-- The outcomes are those that were admitted, and the last one of each order is its
state. -/
structure Recorded (ethers : Ethers) (j : Journal) : Prop where
  rows : ∀ o ∈ j.outcomes, o.payload.id = o.id ∧ o.payload.evidence ≠ "" ∧
    units o.payload.evidence.toList ≤ 32768 ∧
    o.sha256 = ethers.keccak256Utf8 (String.ofList (outcomeText o.payload)) ∧
    j.orders.get? o.id ≠ none
  last : ∀ id, (latest j.outcomes).get? id = (j.orders.get? id).bind conclusionOf

/-- The outcomes whose texts can be read back. -/
def AllFit (j : Journal) : Prop := ∀ o ∈ j.outcomes, units (outcomeText o.payload) ≤ 65536

theorem latest_append (outcomes : List OutcomeRow) (row : OutcomeRow) :
    latest (outcomes ++ [row]) =
      (latest outcomes).set row.payload.id (row.payload.state, row.payload.evidence) := by
  unfold latest
  rw [List.foldl_append]
  rfl

/-- An order that has a last outcome has it among the outcomes. -/
theorem mem_of_latest {outcomes : List OutcomeRow} {id evidence : String} {state : Conclusion}
    (h : (latest outcomes).get? id = some (state, evidence)) :
    ∃ o ∈ outcomes, o.payload = ⟨id, state, evidence⟩ := by
  induction outcomes using List.reverseRecOn with
  | nil => cases h
  | append_singleton rest row ih =>
      rw [latest_append, OrderedMap.get?_set] at h
      split at h
      · next hid =>
          rw [Option.some.injEq, Prod.mk.injEq] at h
          refine ⟨row, by simp, ?_⟩
          rw [hid, ← h.1, ← h.2]
      · obtain ⟨o, ho, hpayload⟩ := ih h
        exact ⟨o, List.mem_append_left _ ho, hpayload⟩

theorem conclusionOf_eq_some {row : OrderRow} {state : Conclusion} {evidence : String} :
    conclusionOf row = some (state, evidence) ↔
      row.state = state.state ∧ row.evidence = some evidence := by
  unfold conclusionOf
  cases hstate : row.state <;> cases state <;> simp [Conclusion.state]

/-! ## Calls -/

/-- The outcome that a call records has a text that can be read back. -/
def Fits (c : Call) : Prop := ∀ id state evidence, c = .recordOutcome id state evidence →
  units (outcomeText ⟨id, state, evidence⟩) ≤ 65536

theorem Recorded.set {j : Journal} (h : Recorded ethers j) {id : String} {row : OrderRow}
    (hsame : (j.orders.get? id).bind conclusionOf = conclusionOf row) :
    Recorded ethers { j with orders := j.orders.set id row } := by
  refine ⟨fun o ho => ?_, fun k => ?_⟩
  · obtain ⟨hid, hevidence, hunits, hsha, hthere⟩ := h.rows o ho
    refine ⟨hid, hevidence, hunits, hsha, ?_⟩
    rw [OrderedMap.get?_set]
    split
    · exact Option.some_ne_none row
    · exact hthere
  · rw [OrderedMap.get?_set]
    split
    · next hk => rw [h.last, hk, hsame, Option.bind_some]
    · exact h.last k

/-- The other calls record nothing and conclude nothing. -/
theorem call_recorded_other {j j' : Journal} {c : Call} (hj : Sound ethers j)
    (hrecorded : Recorded ethers j) (h : call ethers c j = .ok j')
    (hother : ∀ id state evidence, c ≠ .recordOutcome id state evidence) :
    Recorded ethers j' ∧ j'.outcomes = j.outcomes := by
  cases c with
  | prepare input =>
      obtain ⟨⟨next, order⟩, hprepare, rfl⟩ := map_eq_ok.mp h
      obtain ⟨intent, _, hinsert, _⟩ := prepare_eq_ok hprepare
      rcases insertOrder_eq_ok hinsert with rfl | ⟨hnew, rfl⟩
      · exact ⟨hrecorded, rfl⟩
      · exact ⟨hrecorded.set (by rw [hnew]; rfl), rfl⟩
  | reserve id nonce =>
      obtain ⟨row, hrow, hstate, _, _, _, _, rfl⟩ := reserve_eq_ok hj h
      exact ⟨hrecorded.set (by rw [hrow]; simp [conclusionOf, hstate]), rfl⟩
  | signed id raw =>
      obtain ⟨⟨next, hash⟩, hsigned, rfl⟩ := map_eq_ok.mp h
      obtain ⟨row, hrow, hstate, _, rfl⟩ := signed_eq_ok hj hsigned
      exact ⟨hrecorded.set (by rw [hrow]; simp [conclusionOf, hstate]), rfl⟩
  | claimBroadcast id =>
      obtain ⟨⟨next, raw⟩, hclaim, rfl⟩ := map_eq_ok.mp h
      obtain ⟨row, hrow, hstate, _, rfl⟩ := claimBroadcast_eq_ok hj hclaim
      exact ⟨hrecorded.set (by rw [hrow]; simp [conclusionOf, hstate]), rfl⟩
  | recordOutcome id state evidence => exact absurd rfl (hother id state evidence)
  | cancel id =>
      obtain ⟨row, hrow, hstate, rfl⟩ := cancel_eq_ok hj h
      exact ⟨hrecorded.set (by rw [hrow]; simp [conclusionOf, hstate]), rfl⟩

theorem conclusionOf_concluded {row : OrderRow} {state : Conclusion} {evidence : String} :
    conclusionOf { row with state := state.state, evidence := some evidence } =
      some (state, evidence) :=
  conclusionOf_eq_some.mpr ⟨rfl, rfl⟩

/-- An outcome that changes its order is written, and one that does not was written. -/
theorem recordOutcome_recorded {j j' : Journal} {id evidence : String} {state : Conclusion}
    (hj : Sound ethers j) (hrecorded : Recorded ethers j)
    (h : recordOutcome ethers j id state evidence = .ok j') :
    Recorded ethers j' ∧ (AllFit j' ↔ AllFit j ∧ units (outcomeText ⟨id, state, evidence⟩) ≤ 65536) := by
  obtain ⟨row, hrow, _, hevidence, hunits, rfl⟩ := recordOutcome_eq_ok hj h
  by_cases hchange : row.state ≠ state.state ∨ row.evidence ≠ some evidence
  · rw [if_pos hchange]
    refine ⟨⟨fun o ho => ?_, fun k => ?_⟩, ?_⟩
    · have hthere : ∀ k, j.orders.get? k ≠ none → (j.orders.set id {
          row with state := state.state, evidence := some evidence }).get? k ≠ none := by
        intro k hk
        rw [OrderedMap.get?_set]
        split
        · exact Option.some_ne_none _
        · exact hk
      rw [List.mem_append, List.mem_singleton] at ho
      rcases ho with ho | rfl
      · obtain ⟨hid, hnonempty, hlength, hsha, hknown⟩ := hrecorded.rows o ho
        exact ⟨hid, hnonempty, hlength, hsha, hthere o.id hknown⟩
      · exact ⟨rfl, hevidence, hunits, rfl, hthere id (by rw [hrow]; exact Option.some_ne_none row)⟩
    · rw [latest_append, OrderedMap.get?_set, OrderedMap.get?_set]
      by_cases hk : k = id
      · have hpayload : k = (outcomeRow ethers id state evidence).payload.id := hk
        rw [if_pos hpayload, if_pos hk, Option.bind_some, conclusionOf_concluded]
        rfl
      · have hpayload : ¬ k = (outcomeRow ethers id state evidence).payload.id := hk
        rw [if_neg hpayload, if_neg hk]
        exact hrecorded.last k
    · unfold AllFit
      simp only [List.mem_append, List.mem_singleton, or_imp, forall_and, forall_eq]
      rfl
  · rw [if_neg hchange]
    rw [not_or, not_not, not_not] at hchange
    have hconclusion : (j.orders.get? id).bind conclusionOf = some (state, evidence) := by
      rw [hrow, Option.bind_some]
      exact conclusionOf_eq_some.mpr hchange
    refine ⟨hrecorded.set (hconclusion.trans conclusionOf_concluded.symm), ?_⟩
    have hold : AllFit j → units (outcomeText ⟨id, state, evidence⟩) ≤ 65536 := by
      intro hfit
      obtain ⟨o, ho, hpayload⟩ := mem_of_latest ((hrecorded.last id).trans hconclusion)
      rw [← hpayload]
      exact hfit o ho
    exact ⟨fun hfit => ⟨hfit, hold hfit⟩, fun hfit => hfit.1⟩

theorem call_recorded {j j' : Journal} {c : Call} (hj : Sound ethers j) (hrecorded : Recorded ethers j)
    (h : call ethers c j = .ok j') : Recorded ethers j' ∧ (AllFit j' ↔ AllFit j ∧ Fits c) := by
  by_cases hother : ∀ id state evidence, c ≠ .recordOutcome id state evidence
  · obtain ⟨hnext, houtcomes⟩ := call_recorded_other hj hrecorded h hother
    refine ⟨hnext, ?_⟩
    unfold AllFit
    rw [houtcomes]
    exact ⟨fun hfit => ⟨hfit, fun id state evidence heq => absurd heq (hother id state evidence)⟩,
      fun hfit => hfit.1⟩
  · simp only [not_forall, not_not] at hother
    obtain ⟨id, state, evidence, rfl⟩ := hother
    obtain ⟨hnext, hfit⟩ := recordOutcome_recorded hj hrecorded h
    refine ⟨hnext, hfit.trans (and_congr_right fun _ => ?_)⟩
    constructor
    · intro hunits id' state' evidence' heq
      cases heq
      exact hunits
    · intro hfits
      exact hfits id state evidence rfl

/-- A call adds at most one row to each table. -/
theorem call_lengths {j j' : Journal} {c : Call} (hj : Sound ethers j) (h : call ethers c j = .ok j') :
    j'.orders.length ≤ j.orders.length + 1 ∧ j'.outcomes.length ≤ j.outcomes.length + 1 := by
  have hset : ∀ (orders : OrderedMap String OrderRow) id row,
      (orders.set id row).length ≤ orders.length + 1 := by
    intro orders id row
    have hcount := OrderedMap.countP_set_le (fun _ => true) id row orders
    rwa [List.countP_true] at hcount
  have houtcomes : j'.outcomes.length ≤ j.outcomes.length + 1 := by
    cases c with
    | recordOutcome id state evidence =>
        obtain ⟨row, _, _, _, _, rfl⟩ := recordOutcome_eq_ok hj h
        dsimp only
        split
        · rw [List.length_append, List.length_singleton]
        · omega
    | prepare input =>
        obtain ⟨⟨next, order⟩, hprepare, rfl⟩ := map_eq_ok.mp h
        obtain ⟨intent, _, hinsert, _⟩ := prepare_eq_ok hprepare
        rcases insertOrder_eq_ok hinsert with rfl | ⟨_, rfl⟩
        · exact Nat.le_succ _
        · exact Nat.le_succ _
    | reserve id nonce =>
        obtain ⟨_, _, _, _, _, _, _, rfl⟩ := reserve_eq_ok hj h
        exact Nat.le_succ _
    | signed id raw =>
        obtain ⟨⟨next, hash⟩, hsigned, rfl⟩ := map_eq_ok.mp h
        obtain ⟨_, _, _, _, rfl⟩ := signed_eq_ok hj hsigned
        exact Nat.le_succ _
    | claimBroadcast id =>
        obtain ⟨⟨next, raw⟩, hclaim, rfl⟩ := map_eq_ok.mp h
        obtain ⟨_, _, _, _, rfl⟩ := claimBroadcast_eq_ok hj hclaim
        exact Nat.le_succ _
    | cancel id =>
        obtain ⟨_, _, _, rfl⟩ := cancel_eq_ok hj h
        exact Nat.le_succ _
  refine ⟨?_, houtcomes⟩
  cases call_moves hj h with
  | same => exact Nat.le_succ _
  | insert intent _ _ => exact hset _ _ _
  | change id row row' outcomes _ _ => exact hset _ _ _

/-! ## Runs -/

/-- What holds after some calls. -/
structure Kept (ethers : Ethers) (n : Nat) (j : Journal) : Prop where
  sound : Sound ethers j
  recorded : Recorded ethers j
  orders : j.orders.length ≤ n
  outcomes : j.outcomes.length ≤ n

theorem Kept.call {n : Nat} {j j' : Journal} {c : Call} (h : Kept ethers n j)
    (hcall : OrderJournal.call ethers c j = .ok j') : Kept ethers (n + 1) j' := by
  have hlengths := call_lengths h.sound hcall
  have horders := h.orders
  have houtcomes := h.outcomes
  exact ⟨h.sound.moves (call_moves h.sound hcall), (call_recorded h.sound h.recorded hcall).1, by omega,
    by omega⟩

end Reopen

/-! ### A journal that opens and one that does not -/

def sampleIntent : OrderIntent where
  purpose := none
  feed := none
  id := "order-1"
  chainId := 46630
  owner := "0x1111111111111111111111111111111111111111"
  executor := "0x4aff9da56bee9417ae4be3933b24f77b3e29ca30"
  vault := "0x2222222222222222222222222222222222222222"
  manifestDigest := "0xabababababababababababababababababababababababababababababababab"
  sourceDigest := "0xabababababababababababababababababababababababababababababababab"
  grantVersion := "1"
  stateVersion := "1"
  snapshotHash := "0xabababababababababababababababababababababababababababababababab"
  calldata := "0x3ccfd60b"
  createdAt := 1767625210000

/-- The transaction of the order, signed by the executor. -/
def sampleRaw : String :=
  Text.hexText 230 0x02f87082b62680830f42408477359400830186a094222222222222222222222222222222222222222280843ccfd60bc001a032050f5e1a7295ce4a71d63f3dbeacf41a67174b811127dd5e7da387b3fb7b91a01b9d9c78200aae78349e8b1430afbbd6c3122a957ba37854cf2ddb69805ce9d4

def sampleTransaction : ParsedTransaction where
  type := some 2
  isSigned := true
  chainId := 46630
  sender := some "0x4aff9da56bee9417ae4be3933b24f77b3e29ca30"
  recipient := some "0x2222222222222222222222222222222222222222"
  value := 0
  nonce := 0
  data := "0x3ccfd60b"
  hash := some "0x81ef09a8f113e25485596ec49da8b5be4844497602a97178f76e6cc2f16003d2"
  gasLimit := 100000
  maxFeePerGas := some 2000000000
  maxPriorityFeePerGas := some 1000000

/-- Addresses in lower case, one transaction, and one outcome with a short evidence. -/
def sampleEthers : Ethers where
  checksum v := v
  transactionFrom raw := if raw = sampleRaw then some sampleTransaction else none
  keccak256 _ := "0x81ef09a8f113e25485596ec49da8b5be4844497602a97178f76e6cc2f16003d2"
  keccak256Utf8 _ := "0x899c34e81276e1f6c71b3c4342b9d29a03804300ba72271245a17ee1f70d4f5e"

def sampleHash : String := "0xcdcdcdcdcdcdcdcdcdcdcdcdcdcdcdcdcdcdcdcdcdcdcdcdcdcdcdcdcdcdcdcd"

def sampleJournal : Journal := ⟨sampleHash, [], []⟩

/-- An order until it is claimed for its broadcast. -/
def sampleCalls : List Call :=
  [.prepare sampleIntent, .reserve "order-1" "0", .signed "order-1" sampleRaw, .claimBroadcast "order-1"]

/-- The journal with the one order in some state. -/
def sampleAt (row : OrderRow) : Journal := { sampleJournal with orders := [("order-1", row)] }

def reservedRow : OrderRow := { freshRow sampleIntent with nonce := some "0", state := .reserved }

def signedRow : OrderRow :=
  { reservedRow with
    rawTransaction := some sampleRaw, transactionHash := sampleTransaction.hash, state := .signed }

def claimedRow : OrderRow := { signedRow with state := .broadcastUncertain }

/-- Evidence of quotes only. -/
def quotes (n : Nat) : String := String.ofList (List.replicate n '"')

/-- The sample order with evidence of so many quotes. -/
def quotedCalls (n : Nat) : List Call :=
  sampleCalls ++ [.recordOutcome "order-1" .reconciled (quotes n)]

end OrderJournal
end AlphaForge
