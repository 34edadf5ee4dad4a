/-
What the calls of a runtime promise each other.

`SendChange` is what one step may do to the journal and the submissions, and
`ShowChange` what it may do to the session and what is shown.  A call relies on the
others to leave its own submission alone, and, while its read is the current one, to
revoke nothing.  `Inv` holds between all steps, and both properties of a run are in it.
-/
import AlphaForge.Client.M3BrowserRuntime.Notes

namespace AlphaForge
namespace M3BrowserRuntime

open Evm Async
open M3SubmissionJournal (Acceptable PendingWalletSubmission SubmissionStorage accepted read
  stringify)

/-- The context of the journal, if there is a deployment. -/
def context (c : Options) : M3SubmissionJournal.Context :=
  match c.deployment with
  | some d => d.context
  | none => ⟨0, 0⟩

/-- What the journal is told of an action. -/
def entryOf (prepared : PreparedAction) (txHash : Bytes32) : PendingWalletSubmission :=
  ⟨prepared.operationId, M3SubmissionJournal.chainId, prepared.owner, prepared.target,
    prepared.data, txHash⟩

/-- The journal may keep the action, whatever its hash. -/
def Fit (c : Options) (prepared : PreparedAction) : Prop :=
  ∀ txHash, accepted (context c) prepared.owner (entryOf prepared txHash)

structure ReviewsFit (c : Options) (p : Page) : Prop where
  flow : ∀ e ∈ p.flowReviews, Fit c e.2
  pass : ∀ e ∈ p.passTransferReviews, Fit c e.2

/-! ## Steps -/

/-- A text of the journal is written. -/
structure Writes (c : Options) (owner : Address) (items : List PendingWalletSubmission)
    (p p' : Page) : Prop where
  acceptable : Acceptable (context c) owner items
  storage : p'.storage = p.storage.set owner (stringify items)

inductive SendChange (c : Options) (n : Nat) (p p' : Page) : Prop where
  | kept (sends : p'.sends = p.sends) (storage : p'.storage = p.storage)
  | checked (t : Intent) (items : List PendingWalletSubmission)
      (new : ∀ s ∈ unresolved p.sends, s.call ≠ n)
      (held : read (context c) t.owner p.storage = .ok items)
      (other : ∀ item ∈ items, ¬ (item.target = t.target ∧ item.calldata = t.calldata))
      (sends : p'.sends = .checked n t :: p.sends)
      (writes : Writes c t.owner items p p')
  | asked (operationId : String) (t : Intent) (ready : stage n p.sends = .ready t)
      (sends : p'.sends = .asked n operationId t :: p.sends) (storage : p'.storage = p.storage)
  | answered (entry : SendNote)
      (answer : entry = .rejected n ∨ entry = .unknown n ∨ entry = .unrecorded n ∨ entry = .ended n)
      (sends : p'.sends = entry :: p.sends) (storage : p'.storage = p.storage)
  | recorded (input : PendingWalletSubmission) (previous items : List PendingWalletSubmission)
      (own : ∀ s ∈ unresolved p.sends, s.call = n →
        s = ⟨n, input.operationId, input.owner, input.target, input.calldata⟩)
      (held : read (context c) input.owner p.storage = .ok previous)
      (longer : ∀ item ∈ previous, item ∈ items) (entry : input ∈ items)
      (sends : p'.sends = .recorded n :: p.sends)
      (writes : Writes c input.owner items p p')
  | settled (item : PendingWalletSubmission) (previous : List PendingWalletSubmission)
      (held : read (context c) item.owner p.storage = .ok previous)
      (sends : p'.sends = .settled item.operationId :: p.sends)
      (writes : Writes c item.owner
        (previous.filter fun e => e.operationId ≠ item.operationId) p p')

/-- A session that is there was seen, unless what is shown was revoked. -/
def Bound (p : Page) : Prop :=
  p.session.isSome = true → ¬ Revoked p.snapshot → Authorized p.shown

inductive ShowChange (n : Nat) (p p' : Page) : Prop where
  | kept (snapshot : p'.snapshot = p.snapshot) (shown : p'.shown = p.shown)
      (session : p'.session = p.session ∨ p'.session = none)
      (readRevision : p'.readRevision = p.readRevision) (reader : p'.reader = p.reader)
  | began (snapshot : p'.snapshot = p.snapshot)
      (shown : p'.shown = .began (p.readRevision + 1) :: p.shown) (session : p'.session = p.session)
      (readRevision : p'.readRevision = p.readRevision + 1)
  | observed (revision : Nat) (snapshot : p'.snapshot = p.snapshot)
      (shown : p'.shown = .observed revision :: p.shown) (session : p'.session = p.session)
      (readRevision : p'.readRevision = p.readRevision) (reader : p'.reader = p.reader)
  | bound (authorized : Authorized p.shown) (snapshot : p'.snapshot = p.snapshot)
      (shown : p'.shown = p.shown) (readRevision : p'.readRevision = p.readRevision)
      (reader : p'.reader = p.reader)
  | published (origin : Origin)
      (shown : p'.shown = .published origin p.snapshot p.session.isSome p'.snapshot :: p.shown)
      (session : p'.session = p.session) (readRevision : p'.readRevision = p.readRevision)
      (reader : p'.reader = p.reader)
      (read : origin = .read → p.reader = n ∧
        (Grants p'.snapshot → Grants p.snapshot ∨ Authorized p.shown) ∧
        (p.session.isSome = true → ¬ Revoked p'.snapshot →
          ¬ Revoked p.snapshot ∨ Authorized p.shown))
      (review : origin = .review → ¬ Revoked p'.snapshot)
      (same : origin = .kept → authority p'.snapshot = authority p.snapshot)
  | lost (revoked : Revoked p'.snapshot)
      (shown : p'.shown = .published .read p.snapshot false p'.snapshot :: p.shown)
      (session : p'.session = none) (readRevision : p'.readRevision = p.readRevision + 1)

structure Guar (c : Options) (n : Nat) (p p' : Page) : Prop where
  sends : SendChange c n p p'
  shows : ShowChange n p p'
  reviews : ReviewsFit c p → ReviewsFit c p'

/-- What a call relies on while it waits. -/
structure Rely (n : Nat) (p p' : Page) : Prop where
  stage : stage n p'.sends = stage n p.sends
  unresolved : ∀ s ∈ unresolved p'.sends, s.call = n → s ∈ unresolved p.sends
  revision : p.readRevision ≤ p'.readRevision
  current : p'.readRevision = p.readRevision → p.reader = n →
    p'.reader = n ∧ Extends p.shown p'.shown ∧ (¬ Revoked p.snapshot → ¬ Revoked p'.snapshot)

theorem Rely.refl (n : Nat) (p : Page) : Rely n p p :=
  ⟨rfl, fun _ hs _ => hs, Nat.le_refl _, fun _ hreader => ⟨hreader, Extends.refl _, id⟩⟩

theorem Rely.trans {n : Nat} {p p' p'' : Page} (h : Rely n p p') (h' : Rely n p' p'') :
    Rely n p p'' where
  stage := h'.stage.trans h.stage
  unresolved s hs hcall := h.unresolved s (h'.unresolved s hs hcall) hcall
  revision := Nat.le_trans h.revision h'.revision
  current hrevision hreader := by
    have hle := h.revision
    have hle' := h'.revision
    obtain ⟨hreader', hextends, hunrevoked⟩ := h.current (by omega) hreader
    obtain ⟨hreader'', hextends', hunrevoked'⟩ := h'.current (by omega) hreader'
    exact ⟨hreader'', hextends.trans hextends', fun h => hunrevoked' (hunrevoked h)⟩

/-! ## What the others hear -/

variable {c : Options} {n m : Nat} {p p' : Page}

theorem SendChange.heard (hne : n ≠ m) (h : SendChange c n p p') :
    stage m p'.sends = stage m p.sends ∧
      ∀ s ∈ unresolved p'.sends, s.call = m → s ∈ unresolved p.sends := by
  cases h with
  | kept sends storage =>
      rw [sends]
      exact ⟨rfl, fun _ hs _ => hs⟩
  | checked t items new held other sends writes =>
      rw [sends]
      exact ⟨if_neg hne, fun _ hs _ => hs⟩
  | asked operationId t ready sends storage =>
      rw [sends]
      refine ⟨if_neg hne, fun s hs hcall => ?_⟩
      rcases List.mem_cons.mp hs with rfl | hs
      · exact absurd hcall hne
      · exact hs
  | answered entry answer sends storage =>
      rw [sends]
      rcases answer with rfl | rfl | rfl | rfl
      · exact ⟨if_neg hne, fun _ hs _ => (List.mem_filter.mp hs).1⟩
      · exact ⟨if_neg hne, fun _ hs _ => hs⟩
      · exact ⟨if_neg hne, fun _ hs _ => hs⟩
      · exact ⟨if_neg hne, fun _ hs _ => hs⟩
  | recorded input previous items own held longer entry sends writes =>
      rw [sends]
      exact ⟨if_neg hne, fun _ hs _ => hs⟩
  | settled item previous held sends writes =>
      rw [sends]
      exact ⟨rfl, fun _ hs _ => (List.mem_filter.mp hs).1⟩

theorem not_revokes_of_unrevoked {origin : Origin} {before after : Presentation} {bound : Bool}
    (h : ¬ Revoked after) : ¬ Revokes (.published origin before bound after) := fun hrevokes =>
  h hrevokes.1

theorem not_revokes_of_same {origin : Origin} {before after : Presentation} {bound : Bool}
    (h : authority after = authority before) : ¬ Revokes (.published origin before bound after) :=
  fun hrevokes => hrevokes.2 h

theorem ShowChange.heard (hne : n ≠ m) (h : ShowChange n p p') :
    p.readRevision ≤ p'.readRevision ∧
      (p'.readRevision = p.readRevision → p.reader = m →
        p'.reader = m ∧ Extends p.shown p'.shown ∧
          (¬ Revoked p.snapshot → ¬ Revoked p'.snapshot)) := by
  cases h with
  | kept snapshot shown session readRevision reader =>
      rw [readRevision, snapshot, shown, reader]
      exact ⟨Nat.le_refl _, fun _ hreader => ⟨hreader, Extends.refl _, id⟩⟩
  | began snapshot shown session readRevision =>
      rw [readRevision]
      exact ⟨Nat.le_succ _, fun hrevision => absurd hrevision (Nat.succ_ne_self _)⟩
  | observed revision snapshot shown session readRevision reader =>
      rw [readRevision, snapshot, shown, reader]
      exact ⟨Nat.le_refl _, fun _ hreader => ⟨hreader, Extends.cons id _, id⟩⟩
  | bound authorized snapshot shown readRevision reader =>
      rw [readRevision, snapshot, shown, reader]
      exact ⟨Nat.le_refl _, fun _ hreader => ⟨hreader, Extends.refl _, id⟩⟩
  | published origin shown session readRevision reader read review same =>
      rw [readRevision, shown, reader]
      refine ⟨Nat.le_refl _, fun _ hreader => ⟨hreader, ?_⟩⟩
      cases origin with
      | read => exact absurd ((read rfl).1.symm.trans hreader) hne
      | review =>
          exact ⟨Extends.cons (not_revokes_of_unrevoked (review rfl)) _, fun _ => review rfl⟩
      | kept =>
          exact ⟨Extends.cons (not_revokes_of_same (same rfl)) _,
            fun hbefore => fun hafter => hbefore ((revoked_congr (same rfl)).mp hafter)⟩
  | lost revoked shown session readRevision =>
      rw [readRevision]
      exact ⟨Nat.le_succ _, fun hrevision => absurd hrevision (Nat.succ_ne_self _)⟩

theorem Guar.heard (hne : n ≠ m) (h : Guar c n p p') : Rely m p p' :=
  ⟨(h.sends.heard hne).1, (h.sends.heard hne).2, (h.shows.heard hne).1, (h.shows.heard hne).2⟩

/-! ## The invariant -/

/-- The journal has an entry of this submission. -/
def InJournal (c : Options) (storage : SubmissionStorage) (s : Submission) : Prop :=
  ∃ items, read (context c) s.intent.owner storage = .ok items ∧ ∃ item ∈ items,
    item.operationId = s.operationId ∧ item.target = s.intent.target ∧
      item.calldata = s.intent.calldata

/-- A text of an owner is as it was at first, or was written and is read back. -/
def WrittenBack (c : Options) (first storage : SubmissionStorage) : Prop :=
  ∀ owner, storage.get? owner = first.get? owner ∨
    ∃ items, storage.get? owner = some (stringify items) ∧
      read (context c) owner storage = .ok items

structure SendInv (c : Options) (first : SubmissionStorage) (p : Page) : Prop where
  kept : ∀ s ∈ unresolved p.sends, s ∈ unkept p.sends ∨ InJournal c p.storage s
  ready : ChecksAlone p.sends → ∀ n t, stage n p.sends = .ready t →
    (∀ s ∈ unresolved p.sends, s.intent ≠ t) ∧ ∀ m, stage m p.sends = .ready t → m = n
  noDuplicate : ChecksAlone p.sends → NoDuplicate p.sends
  written : WrittenBack c first p.storage

structure ShowInv (p : Page) : Prop where
  authorized : GrantsAuthorized p.shown
  granted : Grants p.snapshot → Authorized p.shown
  bound : Bound p

structure Inv (c : Options) (first : SubmissionStorage) (p : Page) : Prop where
  reviews : ReviewsFit c p
  sends : SendInv c first p
  shows : ReviewsCurrent p.shown → ShowInv p

variable {first : SubmissionStorage} {owner : Address} {items : List PendingWalletSubmission}

theorem Writes.read_self (h : Writes c owner items p p') :
    read (context c) owner p'.storage = .ok items :=
  M3SubmissionJournal.read_stringify h.acceptable (by rw [h.storage, OrderedMap.get?_set_self])

theorem Writes.read_other (h : Writes c owner items p p') {other : Address} (hne : other ≠ owner) :
    read (context c) other p'.storage = read (context c) other p.storage :=
  M3SubmissionJournal.read_congr (by rw [h.storage, OrderedMap.get?_set_of_ne hne])

/-- An entry stays that the new text has too. -/
theorem Writes.inJournal (h : Writes c owner items p p') {s : Submission}
    {previous : List PendingWalletSubmission}
    (held : read (context c) owner p.storage = .ok previous)
    (hkeeps : ∀ item ∈ previous, item.operationId = s.operationId → item ∈ items)
    (hs : InJournal c p.storage s) : InJournal c p'.storage s := by
  obtain ⟨old, hread, item, hitem, hid, hrest⟩ := hs
  by_cases howner : s.intent.owner = owner
  · rw [howner, held] at hread
    obtain rfl := Except.ok.inj hread
    exact ⟨items, howner ▸ h.read_self, item, hkeeps item hitem hid, hid, hrest⟩
  · exact ⟨old, (h.read_other howner).trans hread, item, hitem, hid, hrest⟩

theorem Writes.writtenBack (h : Writes c owner items p p') (hp : WrittenBack c first p.storage) :
    WrittenBack c first p'.storage := by
  intro other
  by_cases hother : other = owner
  · subst hother
    exact Or.inr ⟨items, by rw [h.storage, OrderedMap.get?_set_self], h.read_self⟩
  · rw [h.read_other hother, h.storage, OrderedMap.get?_set_of_ne hother]
    exact hp other

/-- No submission is let through, and none is asked for. -/
theorem SendInv.ready_mono (log : List SendNote) {log' : List SendNote}
    (hstage : ∀ m t, stage m log' = .ready t → stage m log = .ready t)
    (hunresolved : ∀ s ∈ unresolved log', s ∈ unresolved log)
    (h : ∀ n t, stage n log = .ready t →
      (∀ s ∈ unresolved log, s.intent ≠ t) ∧ ∀ m, stage m log = .ready t → m = n) :
    ∀ n t, stage n log' = .ready t →
      (∀ s ∈ unresolved log', s.intent ≠ t) ∧ ∀ m, stage m log' = .ready t → m = n :=
  fun n t hn =>
    ⟨fun s hs => (h n t (hstage n t hn)).1 s (hunresolved s hs),
      fun m hm => (h n t (hstage n t hn)).2 m (hstage m t hm)⟩

theorem SendChange.inv (h : SendChange c n p p') (hp : SendInv c first p) :
    SendInv c first p' := by
  cases h with
  | kept sends storage =>
      refine ⟨?_, ?_, ?_, ?_⟩
      · rw [sends, storage]
        exact hp.kept
      · rw [sends]
        exact hp.ready
      · rw [sends]
        exact hp.noDuplicate
      · rw [storage]
        exact hp.written
  | checked t items new held other sends writes =>
      -- the journal has nothing of `t`, so whatever is unresolved of it is not kept
      have hnone : (∀ s ∈ unkept p.sends, s.intent ≠ t) →
          ∀ s ∈ unresolved p.sends, s.intent ≠ t := by
        rintro halone s hs rfl
        rcases hp.kept s hs with hunkept | ⟨previous, hread, item, hitem, _, htarget⟩
        · exact halone s hunkept rfl
        · rw [held] at hread
          obtain rfl := Except.ok.inj hread
          exact other item hitem htarget
      refine ⟨?_, ?_, ?_, writes.writtenBack hp.written⟩
      · rw [sends]
        intro s hs
        exact (hp.kept s hs).imp id (writes.inJournal held fun _ hitem _ => hitem)
      · rw [sends]
        rintro ⟨halone, hready, hchecks⟩ m t' hm
        by_cases hmn : n = m
        · have hintent : t = t' := by
            rw [stage, if_pos hmn] at hm
            injection hm
          refine ⟨hintent ▸ hnone halone, fun m' hm' => ?_⟩
          by_cases hmn' : n = m'
          · exact hmn'.symm.trans hmn
          · rw [stage, if_neg hmn', ← hintent] at hm'
            exact absurd hm' (hready m')
        · rw [stage, if_neg hmn] at hm
          obtain ⟨hunresolved, hunique⟩ := hp.ready hchecks m t' hm
          refine ⟨hunresolved, fun m' hm' => ?_⟩
          by_cases hmn' : n = m'
          · rw [stage, if_pos hmn'] at hm'
            injection hm' with hintent
            exact absurd (hintent ▸ hm) (hready m)
          · rw [stage, if_neg hmn'] at hm'
            exact hunique m' hm'
      · rw [sends]
        exact fun hchecks => hp.noDuplicate hchecks.2.2
  | asked operationId t ready sends storage =>
      refine ⟨?_, ?_, ?_, storage ▸ hp.written⟩
      · rw [sends, storage]
        intro s hs
        rcases List.mem_cons.mp hs with rfl | hs
        · exact Or.inl List.mem_cons_self
        · exact (hp.kept s hs).imp (List.mem_cons_of_mem _) id
      · rw [sends]
        intro hchecks m t' hm
        have hmn : n ≠ m := by
          rintro rfl
          rw [stage, if_pos rfl] at hm
          cases hm
        rw [stage, if_neg hmn] at hm
        obtain ⟨hunresolved, hunique⟩ := hp.ready hchecks m t' hm
        refine ⟨fun s hs hintent => ?_, fun m' hm' => ?_⟩
        · rcases List.mem_cons.mp hs with rfl | hs
          · exact hmn (hunique n (hintent ▸ ready))
          · exact hunresolved s hs hintent
        · by_cases hmn' : n = m'
          · rw [stage, if_pos hmn'] at hm'
            cases hm'
          · rw [stage, if_neg hmn'] at hm'
            exact hunique m' hm'
      · rw [sends]
        exact fun hchecks => ⟨(hp.ready hchecks n t ready).1, hp.noDuplicate hchecks⟩
  | answered entry answer sends storage =>
      have hstage : ∀ m t, (if n = m then Stage.idle else stage m p.sends) = .ready t →
          stage m p.sends = .ready t := by
        intro m t hm
        by_cases hmn : n = m
        · rw [if_pos hmn] at hm
          cases hm
        · rwa [if_neg hmn] at hm
      rcases answer with rfl | rfl | rfl | rfl
      · refine ⟨?_, ?_, ?_, storage ▸ hp.written⟩
        · rw [sends, storage]
          intro s hs
          obtain ⟨hs, hcall⟩ := List.mem_filter.mp hs
          exact (hp.kept s hs).imp (fun hunkept => List.mem_filter.mpr ⟨hunkept, hcall⟩) id
        · rw [sends]
          exact fun hchecks => SendInv.ready_mono p.sends hstage
            (fun s hs => (List.mem_filter.mp hs).1) (hp.ready hchecks)
        · rw [sends]
          exact hp.noDuplicate
      all_goals
        refine ⟨?_, ?_, ?_, storage ▸ hp.written⟩
        · rw [sends, storage]
          exact hp.kept
        · rw [sends]
          exact fun hchecks => SendInv.ready_mono p.sends hstage (fun s hs => hs) (hp.ready hchecks)
        · rw [sends]
          exact hp.noDuplicate
  | recorded input previous items own held longer entry sends writes =>
      refine ⟨?_, ?_, ?_, writes.writtenBack hp.written⟩
      · rw [sends]
        intro s hs
        by_cases hcall : s.call = n
        · -- the submission of this call has its entry now
          obtain rfl := own s hs hcall
          exact Or.inr ⟨items, writes.read_self, input, entry, rfl, rfl, rfl⟩
        · exact (hp.kept s hs).imp
            (fun hunkept => List.mem_filter.mpr ⟨hunkept, decide_eq_true hcall⟩)
            (writes.inJournal held fun item hitem _ => longer item hitem)
      · rw [sends]
        refine fun hchecks => SendInv.ready_mono p.sends ?_ (fun s hs => hs) (hp.ready hchecks)
        intro m t hm
        by_cases hmn : n = m
        · rw [stage, if_pos hmn] at hm
          cases hm
        · rwa [stage, if_neg hmn] at hm
      · rw [sends]
        exact hp.noDuplicate
  | settled item previous held sends writes =>
      refine ⟨?_, ?_, ?_, writes.writtenBack hp.written⟩
      · rw [sends]
        intro s hs
        obtain ⟨hs, hid⟩ := List.mem_filter.mp hs
        refine (hp.kept s hs).imp (fun hunkept => List.mem_filter.mpr ⟨hunkept, hid⟩)
          (writes.inJournal held fun e he heq => ?_)
        exact List.mem_filter.mpr ⟨he, heq ▸ hid⟩
      · rw [sends]
        exact fun hchecks => SendInv.ready_mono p.sends (fun m t hm => hm)
          (fun s hs => (List.mem_filter.mp hs).1) (hp.ready hchecks)
      · rw [sends]
        exact hp.noDuplicate

theorem ShowChange.inv (h : ShowChange n p p') (hp : ReviewsCurrent p.shown → ShowInv p) :
    ReviewsCurrent p'.shown → ShowInv p' := by
  cases h with
  | kept snapshot shown session readRevision reader =>
      rw [shown]
      intro hreviews
      obtain ⟨hauthorized, hgranted, hbound⟩ := hp hreviews
      refine ⟨shown ▸ hauthorized, ?_, ?_⟩
      · rw [snapshot, shown]
        exact hgranted
      · rw [Bound, snapshot, shown]
        rcases session with hsession | hsession
        · rw [hsession]
          exact hbound
        · rw [hsession]
          exact fun h => by cases h
  | began snapshot shown session readRevision =>
      rw [shown]
      intro hreviews
      obtain ⟨hauthorized, hgranted, hbound⟩ := hp hreviews
      refine ⟨shown ▸ hauthorized, ?_, ?_⟩
      · rw [snapshot, shown]
        exact hgranted
      · rw [Bound, snapshot, shown, session]
        exact hbound
  | observed revision snapshot shown session readRevision reader =>
      rw [shown]
      intro hreviews
      obtain ⟨hauthorized, hgranted, hbound⟩ := hp hreviews
      refine ⟨shown ▸ hauthorized, ?_, ?_⟩
      · rw [snapshot, shown]
        exact fun hgrants => Or.inl (hgranted hgrants)
      · rw [Bound, snapshot, shown, session]
        exact fun hsession hunrevoked => Or.inl (hbound hsession hunrevoked)
  | bound authorized snapshot shown readRevision reader =>
      rw [shown]
      intro hreviews
      refine ⟨shown ▸ (hp hreviews).authorized, ?_, ?_⟩
      · rw [snapshot, shown]
        exact fun _ => authorized
      · rw [Bound, snapshot, shown]
        exact fun _ _ => authorized
  | published origin shown session readRevision reader read review same =>
      -- it is enough that the publication is authorized where it grants or a session is there
      have hall : ReviewsCurrent p.shown →
          (Grants p'.snapshot → Authorized p.shown) ∧
          (p.session.isSome = true → ¬ Revoked p'.snapshot → Authorized p.shown) →
          ShowInv p' := by
        rintro hreviews ⟨hgrants, hsession⟩
        refine ⟨?_, ?_, ?_⟩
        · rw [shown]
          exact ⟨hgrants, (hp hreviews).authorized⟩
        · rw [shown]
          exact fun h => ⟨not_revokes_of_unrevoked fun hrevoked => hrevoked.not_grants h, hgrants h⟩
        · rw [Bound, shown, session]
          exact fun h hunrevoked => ⟨not_revokes_of_unrevoked hunrevoked, hsession h hunrevoked⟩
      rw [shown]
      intro hreviews
      cases origin with
      | read =>
          obtain ⟨_, hgrants, hsession⟩ := read rfl
          obtain ⟨_, hgranted, hbound⟩ := hp hreviews
          exact hall hreviews
            ⟨fun h => (hgrants h).elim hgranted id,
              fun h hunrevoked => (hsession h hunrevoked).elim (hbound h) id⟩
      | review =>
          obtain ⟨hbefore, hunrevoked, hreviews⟩ := hreviews
          have hauthorized := (hp hreviews).bound hbefore hunrevoked
          exact hall hreviews ⟨fun _ => hauthorized, fun _ _ => hauthorized⟩
      | kept =>
          obtain ⟨_, hgranted, hbound⟩ := hp hreviews
          exact hall hreviews
            ⟨fun h => hgranted ((grants_congr (same rfl)).mp h),
              fun h hunrevoked => hbound h fun hrevoked =>
                hunrevoked ((revoked_congr (same rfl)).mpr hrevoked)⟩
  | lost revoked shown session readRevision =>
      rw [shown]
      intro hreviews
      refine ⟨?_, fun h => absurd h revoked.not_grants, fun _ h => absurd revoked h⟩
      rw [shown]
      exact ⟨fun h => absurd h revoked.not_grants, (hp hreviews).authorized⟩

theorem Guar.kept (h : Guar c n p p') (hp : Inv c first p) : Inv c first p' :=
  ⟨h.reviews hp.reviews, h.sends.inv hp.sends, h.shows.inv hp.shows⟩

end M3BrowserRuntime
end AlphaForge
