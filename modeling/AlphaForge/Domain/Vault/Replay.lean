/-
Commands that come twice.

The receipt of a command holds the canonical text of its actor, content and policy,
from which these are read back up to the order of keys.  Receipts stay, so the same
command is recognized at any later point, whatever revision it expected, and another
command under its id is refused.
-/
import AlphaForge.Domain.Vault.Run

namespace AlphaForge
namespace DomainVault

open Evm Machine

/-! ## Content -/

/-- The same content, up to the order of keys in what the caller added. -/
def SameContent (c c' : Command) : Prop :=
  c.id = c'.id ∧ c.expectedRevision = c'.expectedRevision ∧ c.body = c'.body ∧
    Json.Same (.object c.metadata) (.object c'.metadata)

theorem CommandType.text_injective {a b : CommandType} (h : a.text = b.text) : a = b := by
  revert h
  cases a <;> cases b <;> simp [CommandType.text]

theorem Body.eq_of_fields {b b' : Body} (htype : b.type = b'.type) (hfields : b.fields = b'.fields) :
    b = b' := by
  cases b <;> cases b' <;> cases htype <;> simp_all [Body.fields]

theorem Body.keys_eq {b b' : Body} (htype : b.type = b'.type) :
    b.fields.map (·.1) = b'.fields.map (·.1) := by
  cases b <;> cases b' <;> cases htype <;> rfl

/-- The values of a command's own fields are texts and a number. -/
theorem Command.fields_leaf (c : Command) : ∀ e ∈ c.fields, ∀ w, Json.Same e.2 w ↔ w = e.2 := by
  obtain ⟨id, expectedRevision, body, metadata, _⟩ := c
  cases body <;> simp [Command.fields, Body.fields, Json.Same]

theorem Command.nodup_keys (c : Command) : ((c.fields ++ c.metadata).map (·.1)).Nodup := by
  have hnames : (c.fields.map (·.1)).Sublist Command.names := by
    obtain ⟨id, expectedRevision, body, metadata, _⟩ := c
    cases body <;> exact of_decide_eq_true rfl
  rw [List.map_append]
  exact c.distinct.sublist (hnames.append_right _)

theorem sameContent_iff {c c' : Command} : Json.Same c.json c'.json ↔ SameContent c c' := by
  constructor
  · intro h
    have hfield : ∀ k v w, (k, v) ∈ c.fields → (k, w) ∈ c'.fields → v = w := fun k v w hv hw =>
      ((c.fields_leaf _ hv w).mp (h.field c'.nodup_keys (List.mem_append_left _ hv)
        (List.mem_append_left _ hw))).symm
    have hid : Json.string c.id = .string c'.id :=
      hfield "id" _ _ List.mem_cons_self List.mem_cons_self
    have hrevision : Json.number c.expectedRevision = .number c'.expectedRevision :=
      hfield "expectedRevision" _ _ (by simp [Command.fields]) (by simp [Command.fields])
    have htext : Json.string c.body.type.text = .string c'.body.type.text :=
      hfield "type" _ _ (by simp [Command.fields]) (by simp [Command.fields])
    rw [Json.string.injEq] at hid htext
    rw [Json.number.injEq] at hrevision
    have htype := CommandType.text_injective htext
    have hbody : c.body = c'.body := Body.eq_of_fields htype
      (Json.fields_eq (Body.keys_eq htype) fun k v w hv hw =>
        hfield k v w (List.mem_append_right _ hv) (List.mem_append_right _ hw))
    have hfields : c.fields = c'.fields := by
      rw [Command.fields, Command.fields, hid, hrevision, hbody]
    refine ⟨hid, hrevision, hbody, ?_⟩
    rw [Command.json, Command.json, Json.Same] at h
    obtain ⟨_, fields, heq, hperm, hsame⟩ := h
    rw [Json.object.injEq] at heq
    subst heq
    obtain ⟨metadata, rfl, hmetadata⟩ := Json.sameFields_append
      (fun e he w => (c.fields_leaf e he w).mp) hsame
    rw [hfields, List.perm_append_left_iff] at hperm
    rw [Json.Same]
    exact ⟨_, metadata, rfl, hperm, hmetadata⟩
  · rintro ⟨hid, hrevision, hbody, hmetadata⟩
    have hfields : c.fields = c'.fields := by
      rw [Command.fields, Command.fields, hid, hrevision, hbody]
    rw [Json.Same] at hmetadata
    obtain ⟨_, metadata, heq, hperm, hsame⟩ := hmetadata
    rw [Json.object.injEq] at heq
    subst heq
    rw [Command.json, Command.json, Json.Same]
    refine ⟨_, c.fields ++ metadata, rfl, ?_, ?_⟩
    · rw [hfields]
      exact hperm.append_left _
    · rw [Json.sameFields_iff]
      refine List.rel_append ?_ (Json.sameFields_iff.mp hsame)
      exact List.forall₂_same.mpr fun e he => ⟨rfl, (c.fields_leaf e he e.2).mpr rfl⟩

/-! ## Fingerprints -/

section Fingerprint

variable {localeCompare : String → String → Ordering} {actor actor' : Actor} {c c' : Command}
  {policy policy' : Option SettlementPolicy}

theorem Actor.eq_of_same (h : Json.Same actor.json actor'.json) : actor = actor' := by
  have hkeys : ([("id", Json.string actor'.id), ("role", .string actor'.role.text)].map
      (·.1)).Nodup := by simp
  have hid : Json.Same (.string actor.id) (.string actor'.id) :=
    h.field hkeys (k := "id") List.mem_cons_self List.mem_cons_self
  have hrole : Json.Same (.string actor.role.text) (.string actor'.role.text) :=
    h.field hkeys (k := "role") (List.mem_cons_of_mem _ List.mem_cons_self)
      (List.mem_cons_of_mem _ List.mem_cons_self)
  rw [Json.Same, Json.string.injEq] at hid hrole
  obtain ⟨id, role⟩ := actor
  obtain ⟨id', role'⟩ := actor'
  have hsame : role = role' := by
    cases role <;> cases role' <;> simp_all [Role.text]
  rw [hsame, show id = id' from hid.symm]

theorem policyJson_injective {a b : Option String} (h : Json.Same (policyJson a) (policyJson b)) :
    a = b := by
  cases a <;> cases b <;> simp_all [policyJson, Json.Same]

/-- Fingerprints are the same only for the same actor, content and policy. -/
theorem fingerprint_injective
    (h : fingerprint localeCompare actor c policy = fingerprint localeCompare actor' c' policy') :
    actor = actor' ∧ SameContent c c' ∧ policyId c policy = policyId c' policy' := by
  have hsame := Json.same_of_canonical h
  have hkeys : ([("actor", actor'.json), ("command", c'.json),
      ("policyId", policyJson (policyId c' policy'))].map (·.1)).Nodup := by simp
  refine ⟨Actor.eq_of_same ?_, sameContent_iff.mp ?_, policyJson_injective ?_⟩
  · exact hsame.field hkeys (k := "actor") (by simp) (by simp)
  · exact hsame.field hkeys (k := "command") (by simp) (by simp)
  · exact hsame.field hkeys (k := "policyId") (by simp) (by simp)

/-- The order of keys does not matter, if the comparison tells them apart. -/
theorem fingerprint_of_sameContent [Std.TransCmp localeCompare]
    (hkeys : Json.Separated localeCompare (fingerprintJson actor c policy))
    (hcontent : SameContent c c') (hpolicy : policyId c policy = policyId c' policy') :
    fingerprint localeCompare actor c policy = fingerprint localeCompare actor c' policy' := by
  refine Json.canonical_of_same localeCompare ?_ hkeys
  rw [fingerprintJson, fingerprintJson, ← hpolicy, Json.Same]
  refine ⟨_, _, rfl, List.Perm.refl _, Json.sameFields_iff.mpr ?_⟩
  exact .cons ⟨rfl, Json.Same.refl _⟩ (.cons ⟨rfl, sameContent_iff.mpr hcontent⟩
    (.cons ⟨rfl, Json.Same.refl _⟩ .nil))

end Fingerprint

/-! ## Receipts -/

section Receipts

variable {localeCompare : String → String → Ordering}

/-- A receipt with its text, in a vault of these two parties. -/
structure Received (id text ownerId executorId : String) (s : VaultState) : Prop where
  reached : Reached s
  receipt : (s.receipts.get? id).map (·.fingerprint) = some text
  ownerId : s.ownerId = ownerId
  executorId : s.executorId = executorId

theorem received_step {id text ownerId executorId : String} {s next : VaultState} {call : Call}
    (h : Received id text ownerId executorId s) (hstep : step localeCompare call s = .ok next) :
    Received id text ownerId executorId next := by
  have hreached := execute_reached h.reached hstep
  obtain ⟨_, _, _, ⟨_, _, _, rfl⟩ | ⟨hnew, hprepare, _⟩⟩ := execute_eq_ok hstep
  · exact h
  · obtain ⟨_, _, _, _, _, _, _, _, hsettled⟩ := prepare_eq_ok hprepare
    have hne : id ≠ call.command.id := by
      rintro rfl
      have hreceipt := h.receipt
      rw [hnew] at hreceipt
      cases hreceipt
    refine ⟨hreached, ?_, hsettled.ownerId.trans h.ownerId,
      hsettled.executorId.trans h.executorId⟩
    rw [hsettled.receipts, OrderedMap.get?_set_of_ne hne]
    exact h.receipt

/-- An accepted command has its receipt. -/
theorem received_of_accepted {s accepted : VaultState} {call : Call} (h : Reached s)
    (hstep : step localeCompare call s = .ok accepted) :
    Received call.command.id (fingerprint localeCompare call.actor call.command call.policy)
      s.ownerId s.executorId accepted := by
  have hreached := execute_reached h hstep
  obtain ⟨_, _, _, ⟨previous, hprevious, htext, rfl⟩ | ⟨_, hprepare, _⟩⟩ := execute_eq_ok hstep
  · exact ⟨hreached, by rw [hprevious, ← htext]; rfl, rfl, rfl⟩
  · obtain ⟨_, _, _, _, _, _, _, _, hsettled⟩ := prepare_eq_ok hprepare
    refine ⟨hreached, ?_, hsettled.ownerId, hsettled.executorId⟩
    rw [hsettled.receipts, OrderedMap.get?_set_self]
    rfl

/-- What becomes of a command whose id has a receipt. -/
theorem step_of_received {id text ownerId executorId : String} {s : VaultState} {call : Call}
    (h : Received id text ownerId executorId s) (hid : call.command.id = id)
    (hvalid : isId id = true) : step localeCompare call s =
      if permitted s call.actor call.command.body.type then
        if text = fingerprint localeCompare call.actor call.command call.policy then .ok s
        else .error "IDEMPOTENCY_CONFLICT"
      else .error "FORBIDDEN" := by
  have hassert := assertInvariant_eq_ok.mpr ⟨h.reached.toConsistent, h.reached.bounded⟩
  obtain ⟨previous, hprevious, htext⟩ := Option.map_eq_some_iff.mp h.receipt
  rw [← hid] at hprevious hvalid
  rw [step, execute, hassert, ok_bind, validId, ensure_of hvalid, ok_bind]
  by_cases hperm : permitted s call.actor call.command.body.type
  · rw [if_pos hperm, ensure_of hperm, ok_bind]
    simp only [hprevious, htext]
    by_cases hsame : text = fingerprint localeCompare call.actor call.command call.policy
    · rw [if_pos hsame, ensure_of hsame]
      rfl
    · rw [if_neg hsame, ensure, if_neg hsame]
      rfl
  · rw [if_neg hperm, ensure, if_neg hperm]
    rfl

theorem permitted_congr {s s' : VaultState} (howner : s'.ownerId = s.ownerId)
    (hexecutor : s'.executorId = s.executorId) (actor : Actor) (type : CommandType) :
    permitted s' actor type ↔ permitted s actor type := by
  rw [permitted, permitted, howner, hexecutor]

end Receipts

/-- The entries of the history as pairs of an id and a revision. -/
def eventKeys (s : VaultState) : List (String × Nat) :=
  s.events.map (fun event => (event.commandId, event.revision))

def receiptKeys (s : VaultState) : List (String × Nat) :=
  s.receipts.map (fun receipt => (receipt.1, receipt.2.revision))

/-- Revisions, events and receipts are in bijection. -/
structure HistoryBijection (s : VaultState) : Prop where
  revisions : s.events.map (·.revision) = List.range' 1 s.revision
  receipts : (eventKeys s).Perm (receiptKeys s)
  keys : s.receipts.keys.Nodup

theorem Reached.bijection {s : VaultState} (h : Reached s) : HistoryBijection s := by
  obtain ⟨hevents, hreceipts, hmatch⟩ := historyMatches_iff.mp h.history
  have hrevisions : s.events.map (·.revision) = List.range' 1 s.revision := by
    refine List.ext_getElem? fun i => ?_
    rw [List.getElem?_map]
    cases hget : s.events[i]? with
    | none =>
        rw [List.getElem?_eq_none_iff, hevents] at hget
        rw [Option.map_none, eq_comm, List.getElem?_eq_none_iff, List.length_range']
        exact hget
    | some event =>
        obtain ⟨hi, _⟩ := List.getElem?_eq_some_iff.mp hget
        rw [Option.map_some, (hmatch i event hget).1, List.getElem?_range' (by omega)]
        simp only [Option.some.injEq]
        omega
  have hnodup : (eventKeys s).Nodup := by
    refine List.Nodup.of_map (fun k => k.2) ?_
    have hmap : (eventKeys s).map (fun k => k.2) = s.events.map (·.revision) := by
      rw [eventKeys, List.map_map]
      rfl
    rw [hmap, hrevisions]
    exact List.nodup_range'
  have hsubset : eventKeys s ⊆ receiptKeys s := by
    intro k hk
    obtain ⟨event, hevent, rfl⟩ := List.mem_map.mp hk
    obtain ⟨i, hi⟩ := List.mem_iff_getElem?.mp hevent
    obtain ⟨receipt, hget, hrevision⟩ := Option.map_eq_some_iff.mp (hmatch i event hi).2
    refine List.mem_map.mpr ⟨(event.commandId, receipt), OrderedMap.mem_of_get? hget, ?_⟩
    simp only [hrevision]
  refine ⟨hrevisions, ?_, h.receipts⟩
  refine (List.subperm_of_subset hnodup hsubset).perm_of_length_le ?_
  rw [receiptKeys, eventKeys, List.length_map, List.length_map, hevents, hreceipts]

/-- An accepted command at any later point of a run: the same one changes nothing, and
another one under its id is refused. -/
theorem commands_idempotent_in_every_run (localeCompare : String → String → Ordering)
    (start : Fresh) (calls : List Call) (call : Call) (accepted : VaultState)
    (haccepted : step localeCompare call (exec (step localeCompare) start.state calls) = .ok accepted)
    (later : List Call) :
    (∀ again : Call, again.actor = call.actor → again.command = call.command →
      policyId again.command again.policy = policyId call.command call.policy →
      step localeCompare again (exec (step localeCompare) accepted later) =
        .ok (exec (step localeCompare) accepted later)) ∧
    (Std.TransCmp localeCompare →
      Json.Separated localeCompare (fingerprintJson call.actor call.command call.policy) →
      ∀ again : Call, again.actor = call.actor → SameContent call.command again.command →
      policyId call.command call.policy = policyId again.command again.policy →
      step localeCompare again (exec (step localeCompare) accepted later) =
        .ok (exec (step localeCompare) accepted later)) ∧
    (∀ other : Call, other.command.id = call.command.id →
      ¬ (call.actor = other.actor ∧ SameContent call.command other.command ∧
        policyId call.command call.policy = policyId other.command other.policy) →
      step localeCompare other (exec (step localeCompare) accepted later) =
          .error "IDEMPOTENCY_CONFLICT" ∨
        step localeCompare other (exec (step localeCompare) accepted later) = .error "FORBIDDEN") ∧
    HistoryBijection (exec (step localeCompare) accepted later) := by
  have hreached := reached_in_every_run localeCompare start calls
  obtain ⟨_, hvalid, hperm, _⟩ := execute_eq_ok haccepted
  have hreceived : Received call.command.id
      (fingerprint localeCompare call.actor call.command call.policy) _ _
      (exec (step localeCompare) accepted later) :=
    exec_invariant (fun _ _ _ h hstep => received_step h hstep)
      (received_of_accepted hreached haccepted) later
  have hstill : permitted (exec (step localeCompare) accepted later) call.actor
      call.command.body.type := (permitted_congr hreceived.ownerId hreceived.executorId _ _).mpr hperm
  refine ⟨?_, ?_, ?_, hreceived.reached.bijection⟩
  · intro again hactor hcommand hpolicy
    have hsame : fingerprint localeCompare call.actor call.command call.policy =
        fingerprint localeCompare again.actor again.command again.policy := by
      rw [fingerprint, fingerprint, fingerprintJson, fingerprintJson, hactor, hpolicy, hcommand]
    rw [step_of_received hreceived (by rw [hcommand]) hvalid, hactor, hcommand, if_pos hstill,
      if_pos (by rw [hsame, hactor, hcommand])]
  · intro _ hkeys again hactor hcontent hpolicy
    have hsame := fingerprint_of_sameContent hkeys hcontent hpolicy
    rw [step_of_received hreceived hcontent.1.symm hvalid, hactor, ← hcontent.2.2.1, if_pos hstill,
      if_pos hsame]
  · intro other hid hdiffers
    rw [step_of_received hreceived hid hvalid]
    split
    · left
      exact if_neg fun hsame => hdiffers (fingerprint_injective hsame)
    · exact .inr rfl

/-- The first deposit again, right after it. -/
theorem first_deposit_again : ∃ accepted,
    step compare firstDeposit accepted = .ok accepted ∧ accepted.idle = 1 := by
  refine ⟨_, (commands_idempotent_in_every_run compare firstVault [] firstDeposit _ rfl []).1
    firstDeposit rfl rfl rfl, rfl⟩

end DomainVault
end AlphaForge
