/-
At most one submission of an order.

Two things are followed through every interleaving.  The journal and the events
agree: a row has a nonce and an envelope exactly when they were reserved and stored
in an event.  And an order that was claimed is claimed for good, so at most one run
holds its envelope or has sent it.
-/
import AlphaForge.Testnet.OrderJournal.Rows
import AlphaForge.Testnet.Submission

namespace AlphaForge
namespace Submission

open Evm OrderJournal Machine

/-! ## Rows grow -/

/-- What a row keeps. -/
structure Later (row row' : OrderRow) : Prop where
  executor : row'.executor = row.executor
  intent : row'.intent = row.intent
  nonce : ∀ n, row.nonce = some n → row'.nonce = some n
  envelope : ∀ raw, row.rawTransaction = some raw → row'.rawTransaction = some raw
  broadcast : row.state ∈ afterBroadcast → row'.state ∈ afterBroadcast

theorem Later.refl (row : OrderRow) : Later row row := ⟨rfl, rfl, fun _ h => h, fun _ h => h, id⟩

section AtMostOnce

variable {ethers : Ethers}

theorem RowStep.later {id : String} {row row' : OrderRow} (h : RowSound ethers id row)
    (hstep : RowStep ethers row row') : Later row row' := by
  cases hstep with
  | reserve nonce hstate _ _ =>
      refine ⟨rfl, rfl, fun n hn => ?_, fun _ hraw => hraw, fun hin => ?_⟩
      · rw [(h.unsigned (.inl hstate)).1] at hn
        cases hn
      · rw [hstate] at hin
        exact absurd hin (by decide)
  | sign raw hash hstate _ =>
      refine ⟨rfl, rfl, fun _ hn => hn, fun old hold => ?_, fun hin => ?_⟩
      · rw [(h.unsealed hstate).1] at hold
        cases hold
      · rw [hstate] at hin
        exact absurd hin (by decide)
  | claim hstate =>
      exact ⟨rfl, rfl, fun _ hn => hn, fun _ hraw => hraw, fun _ => List.mem_cons_self⟩
  | conclude state evidence hstate _ _ =>
      refine ⟨rfl, rfl, fun _ hn => hn, fun _ hraw => hraw, fun _ => ?_⟩
      show state.state ∈ afterBroadcast
      cases state with
      | reconciled => decide
      | reverted => decide
      | reorged => decide
  | cancel hstate =>
      refine ⟨rfl, rfl, fun _ hn => hn, fun _ hraw => hraw, fun hin => ?_⟩
      rw [hstate] at hin
      exact absurd hin (by decide)

/-- Every row of a journal is kept in another. -/
def Grows (j j' : Journal) : Prop := ∀ id row, j.orders.get? id = some row →
  ∃ row', j'.orders.get? id = some row' ∧ Later row row'

theorem Grows.refl (j : Journal) : Grows j j := fun _ row h => ⟨row, h, Later.refl row⟩

theorem Moves.grows {j j' : Journal} (hj : Sound ethers j) (h : Moves ethers j j') : Grows j j' := by
  cases h with
  | same => exact Grows.refl j
  | insert intent _ hnew =>
      intro id row hrow
      refine ⟨row, ?_, Later.refl row⟩
      have hne : id ≠ intent.id := by
        intro heq
        rw [heq, hnew] at hrow
        cases hrow
      rw [OrderedMap.get?_set_of_ne hne]
      exact hrow
  | change key old new outcomes hold hstep =>
      intro id row hrow
      by_cases hid : id = key
      · subst hid
        rw [hold, Option.some.injEq] at hrow
        subst hrow
        exact ⟨new, OrderedMap.get?_set_self id new j.orders, RowStep.later (hj.row hold) hstep⟩
      · refine ⟨row, ?_, Later.refl row⟩
        rw [OrderedMap.get?_set_of_ne hid]
        exact hrow

/-! ## The journal and the events -/

def reservation : Event → Option (String × String)
  | .reserved _ executor nonce => some (executor, nonce)
  | _ => none

/-- The nonces that were reserved, by executor. -/
def reservations (events : List Event) : List (String × String) := events.filterMap reservation

def sentId : Event → Option String
  | .sent id _ => some id
  | _ => none

/-- The orders whose envelopes were handed to the transport. -/
def sends (events : List Event) : List String := events.filterMap sentId

structure Books (ethers : Ethers) (j : Journal) (events : List Event) : Prop where
  sound : Sound ethers j
  reserved : ∀ id executor nonce, Event.reserved id executor nonce ∈ events →
    ∃ row, j.orders.get? id = some row ∧ row.executor = executor ∧ row.nonce = some nonce
  once : (reservations events).Nodup
  numbered : ∀ id row nonce, j.orders.get? id = some row → row.nonce = some nonce →
    Event.reserved id row.executor nonce ∈ events
  stored : ∀ id row raw, j.orders.get? id = some row → row.rawTransaction = some raw →
    Event.stored id raw ∈ events

/-- Events that reserve and store nothing. -/
theorem Books.append {j : Journal} {events new : List Event} (h : Books ethers j events)
    (hnew : ∀ id executor nonce, Event.reserved id executor nonce ∉ new)
    (hnone : reservations new = []) : Books ethers j (events ++ new) := by
  refine ⟨h.sound, fun id executor nonce hin => ?_, ?_, fun id row nonce hrow hnonce => ?_,
    fun id row raw hrow hraw => ?_⟩
  · rcases List.mem_append.mp hin with hin | hin
    · exact h.reserved id executor nonce hin
    · exact absurd hin (hnew id executor nonce)
  · have hsame : reservations (events ++ new) = reservations events ++ reservations new :=
      List.filterMap_append
    rw [hsame, hnone, List.append_nil]
    exact h.once
  · exact List.mem_append_left _ (h.numbered id row nonce hrow hnonce)
  · exact List.mem_append_left _ (h.stored id row raw hrow hraw)

/-- One row changes, and the events say what of it is new. -/
theorem Books.change {j : Journal} {events new : List Event} {outcomes : List OutcomeRow} {id : String}
    {row row' : OrderRow} (h : Books ethers j events) (hrow : j.orders.get? id = some row)
    (hstep : RowStep ethers row row')
    (hreserved : ∀ id' executor nonce, Event.reserved id' executor nonce ∈ new →
      id' = id ∧ executor = row.executor ∧ row'.nonce = some nonce)
    (honce : (reservations (events ++ new)).Nodup)
    (hnumbered : ∀ nonce, row'.nonce = some nonce →
      row.nonce = some nonce ∨ Event.reserved id row.executor nonce ∈ new)
    (hstored : ∀ raw, row'.rawTransaction = some raw →
      row.rawTransaction = some raw ∨ Event.stored id raw ∈ new) :
    Books ethers { j with orders := j.orders.set id row', outcomes } (events ++ new) := by
  have hmoves : Moves ethers j { j with orders := j.orders.set id row', outcomes } :=
    .change id row row' outcomes hrow hstep
  have hlater := RowStep.later (h.sound.row hrow) hstep
  refine ⟨h.sound.moves hmoves, fun id' executor nonce hin => ?_, honce,
    fun id' found nonce hfound hnonce => ?_, fun id' found raw hfound hraw => ?_⟩
  · rcases List.mem_append.mp hin with hin | hin
    · obtain ⟨old, hold, rfl, hnonce⟩ := h.reserved id' executor nonce hin
      obtain ⟨next, hnext, hkept⟩ := Moves.grows h.sound hmoves id' old hold
      exact ⟨next, hnext, hkept.executor, hkept.nonce nonce hnonce⟩
    · obtain ⟨rfl, rfl, hnonce⟩ := hreserved id' executor nonce hin
      exact ⟨row', OrderedMap.get?_set_self _ _ _, hlater.executor, hnonce⟩
  · rw [OrderedMap.get?_set] at hfound
    by_cases hid : id' = id
    · rw [if_pos hid, Option.some.injEq] at hfound
      subst hfound hid
      rw [hlater.executor]
      rcases hnumbered nonce hnonce with hold | hnew
      · exact List.mem_append_left _ (h.numbered id' row nonce hrow hold)
      · exact List.mem_append_right _ hnew
    · rw [if_neg hid] at hfound
      exact List.mem_append_left _ (h.numbered id' found nonce hfound hnonce)
  · rw [OrderedMap.get?_set] at hfound
    by_cases hid : id' = id
    · rw [if_pos hid, Option.some.injEq] at hfound
      subst hfound hid
      rcases hstored raw hraw with hold | hnew
      · exact List.mem_append_left _ (h.stored id' row raw hrow hold)
      · exact List.mem_append_right _ hnew
    · rw [if_neg hid] at hfound
      exact List.mem_append_left _ (h.stored id' found raw hfound hraw)

/-- A step of a row that gives it neither a nonce nor an envelope. -/
theorem Books.quiet {j : Journal} {events : List Event} {outcomes : List OutcomeRow} {id : String}
    {row row' : OrderRow} (h : Books ethers j events) (hrow : j.orders.get? id = some row)
    (hstep : RowStep ethers row row') (hnonce : row'.nonce = row.nonce)
    (hraw : row'.rawTransaction = row.rawTransaction) :
    Books ethers { j with orders := j.orders.set id row', outcomes } events := by
  have hchange : Books ethers { j with orders := j.orders.set id row', outcomes } (events ++ []) := by
    refine h.change hrow hstep (fun _ _ _ hin => absurd hin List.not_mem_nil) ?_
      (fun nonce hn => .inl (hnonce ▸ hn)) (fun raw hr => .inl (hraw ▸ hr))
    rw [List.append_nil]
    exact h.once
  rw [List.append_nil] at hchange
  exact hchange

theorem Books.insert {j : Journal} {events : List Event} {intent : OrderIntent}
    (h : Books ethers j events) (hvalid : validate ethers intent = .ok intent)
    (hnew : j.orders.get? intent.id = none) :
    Books ethers { j with orders := j.orders.set intent.id (freshRow intent) } events := by
  have hmoves : Moves ethers j _ := .insert intent hvalid hnew
  refine ⟨h.sound.moves hmoves, fun id executor nonce hin => ?_, h.once,
    fun id row nonce hrow hnonce => ?_, fun id row raw hrow hraw => ?_⟩
  · obtain ⟨old, hold, rfl, hnonce⟩ := h.reserved id executor nonce hin
    obtain ⟨next, hnext, hkept⟩ := Moves.grows h.sound hmoves id old hold
    exact ⟨next, hnext, hkept.executor, hkept.nonce nonce hnonce⟩
  · rw [OrderedMap.get?_set] at hrow
    split at hrow
    · cases hrow
      cases hnonce
    · exact h.numbered id row nonce hrow hnonce
  · rw [OrderedMap.get?_set] at hrow
    split at hrow
    · cases hrow
      cases hraw
    · exact h.stored id row raw hrow hraw

theorem Books.prepare {j j' : Journal} {events : List Event} {input : OrderIntent}
    {order : Option OrderRow} (h : Books ethers j events)
    (hprepare : OrderJournal.prepare ethers j input = .ok (j', order)) : Books ethers j' events := by
  obtain ⟨intent, hvalid, hinsert, _⟩ := prepare_eq_ok hprepare
  rcases insertOrder_eq_ok hinsert with rfl | ⟨hnew, rfl⟩
  · exact h
  · exact h.insert (validate_idem hvalid) hnew

theorem Books.reserve {j j' : Journal} {events : List Event} {id nonce : String}
    (h : Books ethers j events) (hreserve : OrderJournal.reserve ethers j id nonce = .ok j') :
    Books ethers j' (events ++ [.reserved id (executorOf j id) nonce]) := by
  obtain ⟨row, hrow, hstate, hinteger, hmost, hfree, _, rfl⟩ := reserve_eq_ok h.sound hreserve
  have hexecutor : executorOf j id = row.executor := by
    rw [executorOf, hrow]
    rfl
  rw [hexecutor]
  refine h.change hrow (.reserve nonce hstate hinteger hmost) (fun id' executor n hin => ?_) ?_
    (fun n hn => .inr ?_) (fun raw hraw => .inl hraw)
  · rw [List.mem_singleton, Event.reserved.injEq] at hin
    obtain ⟨rfl, rfl, rfl⟩ := hin
    exact ⟨rfl, rfl, rfl⟩
  · -- a row of the executor has every nonce that was reserved for it
    have hsame : reservations (events ++ [.reserved id row.executor nonce]) =
        reservations events ++ [(row.executor, nonce)] := List.filterMap_append
    rw [hsame, List.nodup_append_comm, List.singleton_append, List.nodup_cons]
    refine ⟨fun hin => ?_, h.once⟩
    obtain ⟨event, hevent, hof⟩ := List.mem_filterMap.mp hin
    cases event with
    | reserved id' executor n =>
        cases hof
        obtain ⟨old, hold, hsame, hn⟩ := h.reserved id' _ _ hevent
        exact hfree (id', old) (OrderedMap.mem_of_get? hold) hsame hn
    | stored _ _ => cases hof
    | claimed _ _ => cases hof
    | sent _ _ => cases hof
  · cases hn
    exact List.mem_singleton_self _

theorem Books.signed {j j' : Journal} {events : List Event} {id raw hash : String}
    (h : Books ethers j events) (hsigned : OrderJournal.signed ethers j id raw = .ok (j', hash)) :
    Books ethers j' (events ++ [.stored id raw]) := by
  obtain ⟨row, hrow, hstate, hhash, rfl⟩ := signed_eq_ok h.sound hsigned
  refine h.change hrow (.sign raw hash hstate hhash) (fun _ _ _ hin => ?_) ?_ (fun n hn => .inl hn)
    (fun r hr => .inr ?_)
  · rw [List.mem_singleton] at hin
    cases hin
  · have hsame : reservations (events ++ [.stored id raw]) = reservations events ++ [] :=
      List.filterMap_append
    rw [hsame, List.append_nil]
    exact h.once
  · cases hr
    exact List.mem_singleton_self _

theorem Books.claim {j j' : Journal} {events : List Event} {id raw : String}
    (h : Books ethers j events) (hclaim : claimBroadcast ethers j id = .ok (j', raw)) :
    Books ethers j' (events ++ [.claimed id raw]) := by
  obtain ⟨row, hrow, hstate, _, rfl⟩ := claimBroadcast_eq_ok h.sound hclaim
  refine Books.append (h.quiet hrow (.claim hstate) rfl rfl) (fun _ _ _ hin => ?_) rfl
  rw [List.mem_singleton] at hin
  cases hin

/-- What the reconciler and a user of the journal do. -/
theorem Books.recordOutcome {j j' : Journal} {events : List Event} {id evidence : String}
    {state : Conclusion} (h : Books ethers j events)
    (hrecord : OrderJournal.recordOutcome ethers j id state evidence = .ok j') :
    Books ethers j' events := by
  obtain ⟨row, hrow, hstate, hevidence, hunits, rfl⟩ := recordOutcome_eq_ok h.sound hrecord
  exact h.quiet hrow (.conclude state evidence hstate hevidence hunits) rfl rfl

theorem Books.cancel {j j' : Journal} {events : List Event} {id : String} (h : Books ethers j events)
    (hcancel : OrderJournal.cancel ethers j id = .ok j') : Books ethers j' events := by
  obtain ⟨row, hrow, hstate, rfl⟩ := cancel_eq_ok h.sound hcancel
  exact h.quiet hrow (.cancel hstate) rfl rfl

/-! ## Turns -/

/-- The run has claimed an envelope that it has not sent. -/
def Phase.isSend : Phase → Bool
  | .send _ _ => true
  | _ => false

/-- What one turn can do. -/
inductive TurnCase (ethers : Ethers) (request : Request) (j : Journal) (phase : Phase) : Turn → Prop
  | quiet (next : Option Phase) (hnext : ∀ p, next = some p → p.isSend = false) :
      TurnCase ethers request j phase ⟨j, next, []⟩
  | prepare (j' : Journal) (order : Option OrderRow) (next : Option Phase)
      (hprepare : OrderJournal.prepare ethers j request.intent = .ok (j', order))
      (hnext : ∀ p, next = some p → p.isSend = false) :
      TurnCase ethers request j phase ⟨j', next, []⟩
  | reserve (j' : Journal) (nonce : String) (next : Phase)
      (hreserve : OrderJournal.reserve ethers j request.intent.id nonce = .ok j')
      (hnext : next.isSend = false) :
      TurnCase ethers request j phase
        ⟨j', some next, [.reserved request.intent.id (executorOf j request.intent.id) nonce]⟩
  | store (j' : Journal) (envelope hash : String) (next : Phase)
      (hsigned : OrderJournal.signed ethers j request.intent.id envelope = .ok (j', hash))
      (hnext : next.isSend = false) :
      TurnCase ethers request j phase ⟨j', some next, [.stored request.intent.id envelope]⟩
  | claim (j' : Journal) (hash envelope : String)
      (hclaim : claimBroadcast ethers j request.intent.id = .ok (j', envelope)) :
      TurnCase ethers request j phase
        ⟨j', some (.send hash envelope), [.claimed request.intent.id envelope]⟩
  | send (hash envelope : String) (hphase : phase = .send hash envelope) :
      TurnCase ethers request j phase
        ⟨j, some (.response hash), [.sent request.intent.id envelope]⟩

theorem isSend_of_some {next p : Phase} (h : next.isSend = false) (hp : some next = some p) :
    p.isSend = false := by
  cases hp
  exact h

theorem TurnCase.ended {request : Request} {j : Journal} {phase : Phase} :
    TurnCase ethers request j phase (ended j) := by
  refine .quiet none fun p hp => ?_
  cases hp

theorem TurnCase.proceed {request : Request} {j : Journal} {phase next : Phase} {check : Prop}
    [Decidable check] (hnext : next.isSend = false) :
    TurnCase ethers request j phase (proceed j check next) := by
  unfold Submission.proceed
  split
  · exact .quiet (some next) fun p => isSend_of_some hnext
  · exact .ended

theorem prepareOrder_cases {request : Request} {j : Journal} {n : Int} :
    TurnCase ethers request j .chainId (prepareOrder ethers request j n) := by
  unfold prepareOrder
  dsimp only
  split
  · split
    · next j' order hprepare =>
        unfold Submission.proceed
        split
        · exact .prepare j' order _ hprepare fun p => isSend_of_some rfl
        · refine .prepare j' order _ hprepare fun p hp => ?_
          cases hp
    · exact .ended
  · exact .ended

theorem reserveNonce_cases {request : Request} {j : Journal} {pending : Int} {phase : Phase} :
    TurnCase ethers request j phase (reserveNonce ethers request j pending) := by
  unfold reserveNonce
  dsimp only
  split
  · next j' hreserve => exact .reserve j' _ _ hreserve rfl
  · exact .ended

theorem storeEnvelope_cases {request : Request} {j : Journal} {pending : Int} {envelope : String}
    {phase : Phase} : TurnCase ethers request j phase (storeEnvelope ethers request j pending envelope) := by
  unfold storeEnvelope
  split
  · exact .ended
  · split
    · split
      · next j' hash hsigned => exact .store j' envelope hash _ hsigned rfl
      · exact .ended
    · exact .ended

theorem claimEnvelope_cases {request : Request} {j : Journal} {hash : String} {phase : Phase} :
    TurnCase ethers request j phase (claimEnvelope ethers request j hash) := by
  unfold claimEnvelope
  split
  · next j' envelope hclaim => exact .claim j' hash envelope hclaim
  · exact .ended

theorem turn_cases {request : Request} {j : Journal} {phase : Phase} {answer : Answer} {t : Turn}
    (h : turn ethers request j phase answer = some t) : TurnCase ethers request j phase t := by
  unfold turn at h
  split at h <;> cases h
  · exact .send _ _ rfl
  · exact .ended
  · exact prepareOrder_cases
  · exact .proceed rfl
  · exact .proceed rfl
  · exact .quiet _ fun p => isSend_of_some rfl
  · exact .proceed rfl
  · exact .proceed rfl
  · split
    · exact reserveNonce_cases
    · exact .ended
  · exact storeEnvelope_cases
  · exact .quiet _ fun p => isSend_of_some rfl
  · exact .proceed rfl
  · exact .proceed rfl
  · split
    · exact claimEnvelope_cases
    · exact .ended
  · exact .ended

/-! ## Flight -/

/-- The run has claimed the envelope of the order. -/
def Run.sending (id : String) (run : Run) : Bool :=
  run.request.intent.id = id && run.phase.isSend

/-- How often the envelope of an order was sent or can still be sent. -/
def handed (s : System) (id : String) : Nat :=
  (sends s.events).count id + s.runs.countP (Run.sending id)

structure Flight (ethers : Ethers) (s : System) : Prop where
  books : Books ethers s.journal s.events
  held : ∀ run ∈ s.runs, ∀ hash envelope, run.phase = .send hash envelope →
    ∃ row, s.journal.orders.get? run.request.intent.id = some row ∧
      row.rawTransaction = some envelope ∧ row.state ∈ afterBroadcast
  single : ∀ id, handed s id ≤ 1
  claimed : ∀ id, 0 < handed s id →
    ∃ row, s.journal.orders.get? id = some row ∧ row.state ∈ afterBroadcast

/-- Nothing is claimed. -/
theorem Flight.keep {s s' : System} (h : Flight ethers s) (hbooks : Books ethers s'.journal s'.events)
    (hgrows : Grows s.journal s'.journal)
    (hruns : ∀ run ∈ s'.runs, run ∈ s.runs ∨ run.phase.isSend = false)
    (hless : ∀ id, handed s' id ≤ handed s id) : Flight ethers s' := by
  refine ⟨hbooks, fun run hrun hash envelope hphase => ?_, fun id => ?_, fun id hpos => ?_⟩
  · rcases hruns run hrun with hold | hnot
    · obtain ⟨row, hrow, hraw, hstate⟩ := h.held run hold hash envelope hphase
      obtain ⟨row', hrow', hlater⟩ := hgrows _ row hrow
      exact ⟨row', hrow', hlater.envelope envelope hraw, hlater.broadcast hstate⟩
    · rw [hphase] at hnot
      cases hnot
  · exact Nat.le_trans (hless id) (h.single id)
  · obtain ⟨row, hrow, hstate⟩ := h.claimed id (Nat.lt_of_lt_of_le hpos (hless id))
    obtain ⟨row', hrow', hlater⟩ := hgrows id row hrow
    exact ⟨row', hrow', hlater.broadcast hstate⟩

/-- The system after a turn. -/
def System.after (s : System) (run : Run) (t : Turn) : System where
  journal := t.journal
  runs := s.runs.erase run ++ (t.phase.map (Run.mk run.request)).toList
  events := s.events ++ t.events

theorem sending_of_not {run : Run} (h : run.phase.isSend = false) (id : String) :
    Run.sending id run = false := by
  rw [Run.sending, h, Bool.and_false]

/-- What a turn adds: what it sends and what the run can send afterwards, less what the run could
send before. -/
theorem handed_after {s : System} {run : Run} {t : Turn} (hrun : run ∈ s.runs) (id : String) :
    handed (s.after run t) id + (if Run.sending id run then 1 else 0) =
      handed s id + (sends t.events).count id +
        ((t.phase.map (Run.mk run.request)).toList).countP (Run.sending id) := by
  have hperm := (List.perm_cons_erase hrun).countP_eq (Run.sending id)
  rw [← List.singleton_append, List.countP_append, List.countP_singleton] at hperm
  have hevents : sends (s.events ++ t.events) = sends s.events ++ sends t.events :=
    List.filterMap_append
  show (sends (s.events ++ t.events)).count id +
      (s.runs.erase run ++ (t.phase.map (Run.mk run.request)).toList).countP (Run.sending id) + _ = _
  rw [handed, hevents, List.count_append, List.countP_append, hperm]
  omega

/-- After the turn the run has nothing to send. -/
theorem Flight.quiet {s : System} {run : Run} {t : Turn} (h : Flight ethers s) (hrun : run ∈ s.runs)
    (hbooks : Books ethers t.journal (s.events ++ t.events)) (hgrows : Grows s.journal t.journal)
    (hnext : ∀ p, t.phase = some p → p.isSend = false) (hsends : sends t.events = []) :
    Flight ethers (s.after run t) := by
  have hnew : ∀ other ∈ (t.phase.map (Run.mk run.request)).toList, other.phase.isSend = false := by
    intro other hother
    rw [Option.mem_toList, Option.map_eq_some_iff] at hother
    obtain ⟨p, hp, rfl⟩ := hother
    exact hnext p hp
  refine h.keep hbooks hgrows (fun other hother => ?_) fun id => ?_
  · rcases List.mem_append.mp hother with hold | hin
    · exact .inl (List.mem_of_mem_erase hold)
    · exact .inr (hnew other hin)
  · have hzero : ((t.phase.map (Run.mk run.request)).toList).countP (Run.sending id) = 0 := by
      rw [List.countP_eq_zero]
      intro other hother
      rw [sending_of_not (hnew other hother)]
      exact Bool.false_ne_true
    have hcount := handed_after (t := t) hrun id
    rw [hsends, hzero, List.count_nil] at hcount
    omega

/-- An order that is claimed was not claimed before. -/
theorem Flight.claim {s : System} {run : Run} {j' : Journal} {hash envelope : String}
    (h : Flight ethers s) (hrun : run ∈ s.runs)
    (hclaim : claimBroadcast ethers s.journal run.request.intent.id = .ok (j', envelope)) :
    Flight ethers (s.after run
      ⟨j', some (.send hash envelope), [.claimed run.request.intent.id envelope]⟩) := by
  obtain ⟨row, hrow, hstate, hraw, hj⟩ := claimBroadcast_eq_ok h.books.sound hclaim
  have hmoves : Moves ethers s.journal j' := hj ▸ .change _ row _ _ hrow (.claim hstate)
  have hgrows := Moves.grows h.books.sound hmoves
  have hnew : ∃ row', j'.orders.get? run.request.intent.id = some row' ∧
      row'.rawTransaction = some envelope ∧ row'.state ∈ afterBroadcast := by
    subst hj
    exact ⟨_, OrderedMap.get?_set_self _ _ _, hraw, List.mem_cons_self⟩
  have hfree : handed s run.request.intent.id = 0 := by
    by_contra hne
    obtain ⟨found, hfound, hin⟩ := h.claimed _ (Nat.pos_of_ne_zero hne)
    rw [hrow, Option.some.injEq] at hfound
    rw [← hfound, hstate] at hin
    exact absurd hin (by decide)
  have hcount : ∀ id, handed (s.after run
      ⟨j', some (.send hash envelope), [.claimed run.request.intent.id envelope]⟩) id ≤
      handed s id + if run.request.intent.id = id then 1 else 0 := by
    intro id
    have hafter := handed_after (s := s) (t := ⟨j', some (.send hash envelope),
      [.claimed run.request.intent.id envelope]⟩) hrun id
    have hone : [Run.mk run.request (.send hash envelope)].countP (Run.sending id) =
        if run.request.intent.id = id then 1 else 0 := by
      simp [List.countP_singleton, Run.sending, Phase.isSend]
    rw [← hone]
    exact Nat.le.intro hafter
  refine ⟨h.books.claim hclaim, fun other hother hash' envelope' hsend => ?_, fun id => ?_,
    fun id hpos => ?_⟩
  · rcases List.mem_append.mp hother with hold | hin
    · obtain ⟨old, hget, hkept, hin⟩ := h.held other (List.mem_of_mem_erase hold) hash' envelope' hsend
      obtain ⟨next, hnext, hlater⟩ := hgrows _ old hget
      exact ⟨next, hnext, hlater.envelope _ hkept, hlater.broadcast hin⟩
    · cases List.mem_singleton.mp hin
      cases hsend
      exact hnew
  · by_cases hid : run.request.intent.id = id
    · have hle := hcount id
      rw [if_pos hid, ← hid, hfree] at hle
      rw [← hid]
      exact hle
    · have hle := hcount id
      rw [if_neg hid] at hle
      exact Nat.le_trans hle (h.single id)
  · by_cases hid : run.request.intent.id = id
    · obtain ⟨row', hrow', _, hin⟩ := hnew
      exact ⟨row', hid ▸ hrow', hin⟩
    · have hle := hcount id
      rw [if_neg hid] at hle
      obtain ⟨old, hget, hin⟩ := h.claimed id (Nat.lt_of_lt_of_le hpos hle)
      obtain ⟨next, hnext, hlater⟩ := hgrows id old hget
      exact ⟨next, hnext, hlater.broadcast hin⟩

theorem Flight.send {s : System} {run : Run} {hash envelope : String} (h : Flight ethers s)
    (hrun : run ∈ s.runs) (hphase : run.phase = .send hash envelope) :
    Flight ethers (s.after run
      ⟨s.journal, some (.response hash), [.sent run.request.intent.id envelope]⟩) := by
  refine h.keep (h.books.append (fun _ _ _ hin => ?_) rfl) (Grows.refl _) (fun other hother => ?_)
    fun id => ?_
  · rw [List.mem_singleton] at hin
    cases hin
  · rcases List.mem_append.mp hother with hold | hin
    · exact .inl (List.mem_of_mem_erase hold)
    · cases List.mem_singleton.mp hin
      exact .inr rfl
  · have hafter := handed_after (s := s) (t := ⟨s.journal, some (.response hash),
      [.sent run.request.intent.id envelope]⟩) hrun id
    have hself : Run.sending id run = decide (run.request.intent.id = id) := by
      rw [Run.sending, hphase]
      exact Bool.and_true _
    have hone : (sends [.sent run.request.intent.id envelope]).count id =
        if run.request.intent.id = id then 1 else 0 := by
      simp [sends, sentId, List.count_singleton]
    have hrest : [Run.mk run.request (.response hash)].countP (Run.sending id) = 0 := by
      rw [List.countP_singleton, sending_of_not rfl]
      rfl
    simp only [hone, hself, decide_eq_true_eq] at hafter
    have hnone : ((Option.map (Run.mk run.request) (some (Phase.response hash))).toList).countP
        (Run.sending id) = 0 := hrest
    rw [hnone] at hafter
    omega

theorem Flight.turn {s : System} {run : Run} {t : Turn} (h : Flight ethers s) (hrun : run ∈ s.runs)
    (hturn : TurnCase ethers run.request s.journal run.phase t) : Flight ethers (s.after run t) := by
  have hsame : Books ethers s.journal (s.events ++ []) := by
    rw [List.append_nil]
    exact h.books
  cases hturn with
  | quiet next hnext => exact h.quiet hrun hsame (Grows.refl _) hnext rfl
  | prepare j' order next hprepare hnext =>
      have hcall : call ethers (.prepare run.request.intent) s.journal = .ok j' :=
        map_eq_ok.mpr ⟨_, hprepare, rfl⟩
      refine h.quiet hrun ?_ (Moves.grows h.books.sound (call_moves h.books.sound hcall)) hnext rfl
      rw [List.append_nil]
      exact h.books.prepare hprepare
  | reserve j' nonce next hreserve hnext =>
      have hcall : call ethers (.reserve run.request.intent.id nonce) s.journal = .ok j' := hreserve
      exact h.quiet hrun (h.books.reserve hreserve)
        (Moves.grows h.books.sound (call_moves h.books.sound hcall)) (fun p => isSend_of_some hnext) rfl
  | store j' envelope hash next hsigned hnext =>
      have hcall : call ethers (.signed run.request.intent.id envelope) s.journal = .ok j' :=
        map_eq_ok.mpr ⟨_, hsigned, rfl⟩
      exact h.quiet hrun (h.books.signed hsigned)
        (Moves.grows h.books.sound (call_moves h.books.sound hcall)) (fun p => isSend_of_some hnext) rfl
  | claim j' hash envelope hclaim => exact h.claim hrun hclaim
  | send hash envelope hphase => exact h.send hrun hphase

/-- A call of the journal from outside the runs. -/
theorem Flight.called {s : System} {j' : Journal} {c : Call} (h : Flight ethers s)
    (hcall : call ethers c s.journal = .ok j') (hbooks : Books ethers j' s.events) :
    Flight ethers { s with journal := j' } :=
  h.keep hbooks (Moves.grows h.books.sound (call_moves h.books.sound hcall)) (fun _ hrun => .inl hrun)
    fun _ => Nat.le_refl _

theorem resume_eq_ok {s s' : System} {run : Run} {answer : Answer}
    (h : step ethers (.resume run answer) s = .ok s') :
    run ∈ s.runs ∧ ∃ t, TurnCase ethers run.request s.journal run.phase t ∧ s' = s.after run t := by
  obtain ⟨_, hensure, hmatch⟩ := bind_eq_ok.mp h
  refine ⟨ensure_eq_ok.mp hensure, ?_⟩
  cases hturn : turn ethers run.request s.journal run.phase answer with
  | none =>
      rw [hturn] at hmatch
      cases hmatch
  | some t =>
      rw [hturn] at hmatch
      cases hmatch
      exact ⟨t, turn_cases hturn, rfl⟩

theorem Flight.step {s s' : System} {a : Action} (h : Flight ethers s)
    (hstep : Submission.step ethers a s = .ok s') : Flight ethers s' := by
  cases a with
  | submit request =>
      obtain ⟨run, hrun, hs⟩ := bind_eq_ok.mp hstep
      cases hs
      have hphase : run.phase = .chainId := by
        simp only [submit, bind_eq_ok, pure_eq_ok] at hrun
        obtain ⟨_, _, _, _, rfl⟩ := hrun
        rfl
      refine h.keep h.books (Grows.refl _) (fun other hother => ?_) fun id => ?_
      · rcases List.mem_append.mp hother with hold | hin
        · exact .inl hold
        · rw [List.mem_singleton.mp hin, hphase]
          exact .inr rfl
      · have hnot : Run.sending id run = false := sending_of_not (by rw [hphase]; rfl) id
        have hcount : (s.runs ++ [run]).countP (Run.sending id) = s.runs.countP (Run.sending id) := by
          rw [List.countP_append, List.countP_singleton, hnot]
          rfl
        exact Nat.le_of_eq (congrArg ((sends s.events).count id + ·) hcount)
  | resume run answer =>
      obtain ⟨hrun, t, hturn, rfl⟩ := resume_eq_ok hstep
      exact h.turn hrun hturn
  | crash =>
      cases hstep
      refine h.keep h.books (Grows.refl _) (fun other hother => absurd hother List.not_mem_nil)
        fun id => ?_
      exact Nat.add_le_add_left (Nat.zero_le _) _
  | prepare input =>
      obtain ⟨j', hcall, hs⟩ := bind_eq_ok.mp hstep
      cases hs
      obtain ⟨⟨next, order⟩, hprepare, rfl⟩ := map_eq_ok.mp hcall
      exact h.called hcall (h.books.prepare hprepare)
  | recordOutcome id state evidence =>
      obtain ⟨j', hcall, hs⟩ := bind_eq_ok.mp hstep
      cases hs
      exact h.called hcall (h.books.recordOutcome hcall)
  | cancel id =>
      obtain ⟨j', hcall, hs⟩ := bind_eq_ok.mp hstep
      cases hs
      exact h.called hcall (h.books.cancel hcall)

theorem flight_initial (configurationHash : String) : Flight ethers (initial configurationHash) where
  books := {
    sound := ⟨List.nodup_nil, fun e he => absurd he List.not_mem_nil⟩
    reserved := fun id executor nonce hin => absurd hin List.not_mem_nil
    once := List.nodup_nil
    numbered := fun id row nonce hrow => by cases hrow
    stored := fun id row raw hrow => by cases hrow }
  held run hrun := absurd hrun List.not_mem_nil
  single id := Nat.zero_le 1
  claimed id hpos := absurd hpos (Nat.lt_irrefl 0)

/-! ## Moments -/

/-- The executor has no open order. -/
def FreeExecutor (j : Journal) (executor : String) : Prop :=
  ∀ e ∈ j.orders, e.2.executor = executor → e.2.state ∉ blocking

/-- The envelope was stored, in the row of its order, and is signed for the nonce that was reserved
for the order, its target, its calldata and the chain. -/
def StoredFor (ethers : Ethers) (s : System) (id envelope : String) : Prop :=
  Event.stored id envelope ∈ s.events ∧
    ∃ row nonce tx, s.journal.orders.get? id = some row ∧ row.rawTransaction = some envelope ∧
      row.nonce = some nonce ∧ Event.reserved id row.executor nonce ∈ s.events ∧
      ethers.transactionFrom envelope = some tx ∧ SignedFor ethers envelope row.intent (some nonce) tx

/-- What the system was when something happened. -/
structure Moment (ethers : Ethers) (s : System) (new : List Event) : Prop where
  free : ∀ id executor nonce, Event.reserved id executor nonce ∈ new → FreeExecutor s.journal executor
  stored : ∀ id envelope, Event.sent id envelope ∈ new → StoredFor ethers s id envelope

theorem moment_nil (s : System) : Moment ethers s [] :=
  ⟨fun _ _ _ hin => absurd hin List.not_mem_nil, fun _ _ hin => absurd hin List.not_mem_nil⟩

theorem Flight.storedFor {s : System} {run : Run} {hash envelope : String} (h : Flight ethers s)
    (hrun : run ∈ s.runs) (hphase : run.phase = .send hash envelope) :
    StoredFor ethers s run.request.intent.id envelope := by
  obtain ⟨row, hrow, hraw, hstate⟩ := h.held run hrun hash envelope hphase
  have hsound := h.books.sound.row hrow
  have hlate : ¬ (row.state = .prepared ∨ row.state = .cancelled) ∧ row.state ≠ .reserved := by
    refine ⟨?_, ?_⟩
    · rintro (heq | heq)
      · rw [heq] at hstate
        exact absurd hstate (by decide)
      · rw [heq] at hstate
        exact absurd hstate (by decide)
    · intro heq
      rw [heq] at hstate
      exact absurd hstate (by decide)
  obtain ⟨nonce, hnonce, _⟩ := hsound.numbered hlate.1
  obtain ⟨raw, hash', hraw', _, hhash⟩ := hsound.sealed hlate.1 hlate.2
  rw [hraw, Option.some.injEq] at hraw'
  subst hraw'
  obtain ⟨_, tx, hparsed, hfor, _⟩ := signedHash_eq_ok.mp hhash
  rw [hnonce] at hfor
  exact ⟨h.books.stored _ row envelope hrow hraw, row, nonce, tx, hrow, hraw, hnonce,
    h.books.numbered _ row nonce hrow hnonce, hparsed, hfor⟩

theorem Flight.turn_moment {s : System} {run : Run} {t : Turn} (h : Flight ethers s)
    (hrun : run ∈ s.runs) (hturn : TurnCase ethers run.request s.journal run.phase t) :
    Moment ethers s t.events := by
  cases hturn with
  | quiet next _ => exact moment_nil s
  | prepare j' order next _ _ => exact moment_nil s
  | reserve j' nonce next hreserve _ =>
      obtain ⟨row, hrow, _, _, _, _, hfree, _⟩ := reserve_eq_ok h.books.sound hreserve
      refine ⟨fun id executor n hin => ?_, fun id envelope hin => ?_⟩
      · cases List.mem_singleton.mp hin
        rw [executorOf, hrow]
        exact hfree
      · cases List.mem_singleton.mp hin
  | store j' envelope hash next _ _ =>
      refine ⟨fun id executor n hin => ?_, fun id envelope hin => ?_⟩
      · cases List.mem_singleton.mp hin
      · cases List.mem_singleton.mp hin
  | claim j' hash envelope _ =>
      refine ⟨fun id executor n hin => ?_, fun id envelope hin => ?_⟩
      · cases List.mem_singleton.mp hin
      · cases List.mem_singleton.mp hin
  | send hash envelope hphase =>
      refine ⟨fun id executor n hin => ?_, fun id raw hin => ?_⟩
      · cases List.mem_singleton.mp hin
      · cases List.mem_singleton.mp hin
        exact h.storedFor hrun hphase

theorem Flight.moment {s s' : System} {a : Action} (h : Flight ethers s)
    (hstep : Submission.step ethers a s = .ok s') :
    ∃ new, s'.events = s.events ++ new ∧ Moment ethers s new := by
  have hsilent : s'.events = s.events → ∃ new, s'.events = s.events ++ new ∧ Moment ethers s new := by
    intro hsame
    refine ⟨[], ?_, moment_nil s⟩
    rw [List.append_nil]
    exact hsame
  cases a with
  | resume run answer =>
      obtain ⟨hrun, t, hturn, rfl⟩ := resume_eq_ok hstep
      exact ⟨t.events, rfl, h.turn_moment hrun hturn⟩
  | crash =>
      cases hstep
      exact hsilent rfl
  | submit request =>
      obtain ⟨_, _, hs⟩ := bind_eq_ok.mp hstep
      cases hs
      exact hsilent rfl
  | prepare input =>
      obtain ⟨_, _, hs⟩ := bind_eq_ok.mp hstep
      cases hs
      exact hsilent rfl
  | recordOutcome id state evidence =>
      obtain ⟨_, _, hs⟩ := bind_eq_ok.mp hstep
      cases hs
      exact hsilent rfl
  | cancel id =>
      obtain ⟨_, _, hs⟩ := bind_eq_ok.mp hstep
      cases hs
      exact hsilent rfl

/-- In every interleaving of runs, with failures and crashes, a nonce of an executor is reserved at
most once and while the executor has no open order, and an envelope is sent at most once and after
it was stored. -/
theorem submitted_at_most_once (ethers : Ethers) (configurationHash : String) (actions : List Action) :
    (reservations (exec (step ethers) (initial configurationHash) actions).events).Nodup ∧
      (sends (exec (step ethers) (initial configurationHash) actions).events).Nodup ∧
      ∀ t ∈ history (step ethers) (initial configurationHash) actions,
        ∃ new, t.post.events = t.pre.events ++ new ∧
          (∀ id executor nonce, Event.reserved id executor nonce ∈ new →
            FreeExecutor t.pre.journal executor) ∧
          ∀ id envelope, Event.sent id envelope ∈ new → StoredFor ethers t.pre id envelope := by
  have hkept : ∀ a s s', Flight ethers s → step ethers a s = .ok s' → Flight ethers s' :=
    fun a s s' h hstep => h.step hstep
  have hend := exec_invariant hkept (flight_initial configurationHash) actions
  refine ⟨hend.books.once, ?_, fun t ht => ?_⟩
  · rw [List.nodup_iff_count_le_one]
    intro id
    exact Nat.le_trans (Nat.le_add_right _ _) (hend.single id)
  · obtain ⟨hpre, hstep, _⟩ := history_invariant hkept (flight_initial configurationHash) ht
    obtain ⟨new, hnew, hmoment⟩ := hpre.moment hstep
    exact ⟨new, hnew, hmoment.free, hmoment.stored⟩

end AtMostOnce

end Submission
end AlphaForge
