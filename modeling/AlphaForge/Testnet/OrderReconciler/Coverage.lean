/-
Every order that was handed to the transport is examined.

The cursor is moved before an order is examined, so an examination that throws is not
repeated by the next call: the calls go up through the ids, start again at the least one,
and go up again.  In the order turned at one id they only go up, until they meet it.
-/
import AlphaForge.Testnet.OrderJournal.Reopen
import AlphaForge.Testnet.OrderReconciler
import Mathlib.Data.List.Sort

namespace AlphaForge
namespace OrderReconciler

open Evm Machine OrderJournal Turned

variable {setup : Setup} {ethers : Ethers} {j j' : Journal} {after id x : String}

/-! ## The journal stays sound -/

theorem call_sound {c : Call} (hj : Sound ethers j) (h : call ethers c j = .ok j') :
    Sound ethers j' :=
  hj.moves (call_moves hj h)

theorem exec_sound (hj : Sound ethers j) (calls : List Call) :
    Sound ethers (exec (call ethers) j calls) :=
  exec_invariant (fun _ _ _ hs h => call_sound hs h) hj calls

theorem create_sound {hash : String} (h : create hash = .ok j) : Sound ethers j := by
  simp only [create, bind_eq_ok, pure_eq_ok] at h
  obtain ⟨-, -, rfl⟩ := h
  exact ⟨List.nodup_nil, fun e he => absurd he List.not_mem_nil⟩

/-! ## The page -/

theorem mem_candidates (hj : Sound ethers j) : id ∈ candidates j ↔
    ∃ row, j.orders.get? id = some row ∧ row.state ∈ afterBroadcast := by
  simp only [candidates, List.mem_map, List.mem_filter, decide_eq_true_eq]
  constructor
  · rintro ⟨⟨_, row⟩, ⟨hin, hstate⟩, rfl⟩
    exact ⟨row, (OrderedMap.mem_iff_get? hj.nodup).mp hin, hstate⟩
  · rintro ⟨row, hrow, hstate⟩
    exact ⟨(id, row), ⟨OrderedMap.mem_of_get? hrow, hstate⟩, rfl⟩

/-- The id of a row is not empty. -/
theorem id_ne_empty (hj : Sound ethers j) (h : id ∈ candidates j) : id ≠ "" := by
  obtain ⟨row, hrow, -⟩ := (mem_candidates hj).mp h
  have hsound := hj.row hrow
  obtain ⟨⟨-, -, -, hid, -⟩, -⟩ := validate_eq_ok.mp hsound.valid
  rw [← hsound.id_eq] at hid
  rintro rfl
  cases hid

theorem candidates_nodup (hj : Sound ethers j) : (candidates j).Nodup :=
  List.Nodup.sublist (List.filter_sublist.map Prod.fst) hj.nodup

/-- The ids beyond the cursor, sorted. -/
def beyond (j : Journal) (after : String) : List String :=
  ((candidates j).filter fun id => after < id).mergeSort (· ≤ ·)

theorem mem_beyond : id ∈ beyond j after ↔ id ∈ candidates j ∧ after < id := by
  rw [beyond, List.mem_mergeSort, List.mem_filter, decide_eq_true_iff]

theorem beyond_sorted (after : String) (hj : Sound ethers j) : (beyond j after).Pairwise (· < ·) := by
  have hnodup : (beyond j after).Nodup :=
    (List.mergeSort_perm _ _).nodup_iff.mpr ((candidates_nodup hj).filter _)
  have hsorted : (beyond j after).Pairwise (· ≤ ·) :=
    (List.pairwise_mergeSort (fun a b c => by simpa using le_trans) (fun a b => by simpa using le_total a b)
      _).imp (by simp)
  exact (hsorted.and hnodup).imp fun h => lt_of_le_of_ne h.1 h.2

theorem mapM_getThere (hj : Sound ethers j) (ids : List String) (h : ∀ id ∈ ids, id ∈ candidates j) :
    ∃ page, ids.mapM (getThere ethers j) = .ok page ∧
      page.map (fun order => order.intent.id) = ids := by
  induction ids with
  | nil => exact ⟨[], rfl, rfl⟩
  | cons id rest ih =>
      obtain ⟨page, hpage, hids⟩ := ih fun k hk => h k (List.mem_cons_of_mem id hk)
      obtain ⟨row, hrow, -⟩ := (mem_candidates hj).mp (h id List.mem_cons_self)
      have hthere : getThere ethers j id = .ok row := by
        rw [getThere, get_eq hj, ok_bind, hrow]
        rfl
      refine ⟨row :: page, ?_, ?_⟩
      · rw [List.mapM_cons, hthere, ok_bind, hpage, ok_bind]
        rfl
      · rw [List.map_cons, hids, ← (hj.row hrow).id_eq]

theorem reconcileCandidates_eq (hj : Sound ethers j) (after : String) :
    ∃ page, reconcileCandidates ethers j after = .ok page ∧
      page.map (fun order => order.intent.id) = (beyond j after).take 100 :=
  mapM_getThere hj _ fun _ hid => (mem_beyond.mp (List.mem_of_mem_take hid)).1

/-! ## The loop over a page -/

section Page

variable {head : Block} {look : String → Look} {cursor : String} {page : List OrderRow}

/-- A loop ends at the last order of its page or at one whose examination throws, and the
cursor is at the last one it examined. -/
theorem examinePage_examined (hne : page ≠ []) :
    ∃ first last, (examinePage setup head look page cursor j).examined = first ++ [last] ∧
      (examinePage setup head look page cursor j).cursor = last ∧
      first ++ [last] <+: page.map (fun order => order.intent.id) ∧
      ((examinePage setup head look page cursor j).threw = none →
        first ++ [last] = page.map (fun order => order.intent.id)) := by
  induction page generalizing cursor j with
  | nil => exact absurd rfl hne
  | cons order rest ih =>
      rw [examinePage]
      dsimp only
      split
      · exact ⟨[], order.intent.id, rfl, rfl, List.prefix_append _ _, fun h => by cases h⟩
      · next next recorded _ =>
        cases rest with
        | nil => exact ⟨[], order.intent.id, rfl, rfl, List.prefix_rfl, fun _ => rfl⟩
        | cons second others =>
            obtain ⟨first, last, hexamined, hcursor, hbegins, hwhole⟩ :=
              ih (j := next) (List.cons_ne_nil _ _)
            refine ⟨order.intent.id :: first, last, ?_, hcursor, ?_, fun h => ?_⟩
            · rw [hexamined]
              rfl
            · exact List.cons_prefix_cons.mpr ⟨rfl, hbegins⟩
            · rw [List.cons_append, hwhole h]
              rfl

theorem examinePage_sound (hj : Sound setup.ethers j) :
    Sound setup.ethers (examinePage setup head look page cursor j).journal := by
  induction page generalizing cursor j with
  | nil => exact hj
  | cons order rest ih =>
      have hothers := exec_sound hj (look order.intent.id).others
      rw [examinePage]
      dsimp only
      split
      · exact hothers
      · next next recorded heq =>
        refine ih ?_
        simp only [bind_eq_ok] at heq
        obtain ⟨outcome, -, heq⟩ := heq
        cases outcome with
        | none =>
            cases heq
            exact hothers
        | some outcome =>
            simp only [bind_eq_ok] at heq
            obtain ⟨last, hrecord, heq⟩ := heq
            cases heq
            exact call_sound (c := .recordOutcome _ _ _) hothers hrecord

end Page

/-- What a call can come to, from the journal that it finds. -/
inductive Outcome (setup : Setup) (look : String → Look) (cursor : String) (j : Journal) : Report → Prop
  | refused : Outcome setup look cursor j ⟨⟨j, cursor, [], none, []⟩, false, j⟩
  | empty (hpage : (beyond j cursor).take 100 = []) :
      Outcome setup look cursor j ⟨⟨j, "", [], none, []⟩, true, j⟩
  | short (head : Block) (page : List OrderRow)
      (hids : page.map (fun order => order.intent.id) = (beyond j cursor).take 100) (hne : page ≠ [])
      (hthrew : (examinePage setup head look page cursor j).threw = none) (hlength : page.length < 100) :
      Outcome setup look cursor j
        ⟨{ examinePage setup head look page cursor j with cursor := "" }, true, j⟩
  | stopped (head : Block) (page : List OrderRow)
      (hids : page.map (fun order => order.intent.id) = (beyond j cursor).take 100) (hne : page ≠ []) :
      Outcome setup look cursor j ⟨examinePage setup head look page cursor j, true, j⟩

theorem reconcile_outcome (round : Round) {s : State} (hs : Sound setup.ethers s.journal) :
    Outcome setup round.look s.cursor (exec (call setup.ethers) s.journal round.before)
      (reconcile setup round s) := by
  obtain ⟨page, hpage, hids⟩ := reconcileCandidates_eq (exec_sound hs round.before) s.cursor
  unfold reconcile
  dsimp only
  split
  · exact .refused
  · next head _ =>
    rw [hpage]
    dsimp only
    split
    · next hempty =>
      refine .empty ?_
      rw [← hids, hempty]
      rfl
    · next hne =>
      split
      · next hshort => exact .short head page hids hne hshort.1 hshort.2
      · exact .stopped head page hids hne

theorem Outcome.sound {look : String → Look} {cursor : String} {r : Report}
    (h : Outcome setup look cursor j r) (hj : Sound setup.ethers j) : Sound setup.ethers r.journal := by
  cases h with
  | refused => exact hj
  | empty => exact hj
  | short => exact examinePage_sound hj
  | stopped => exact examinePage_sound hj

/-! ## Coverage -/

/-- How many calls an order can be passed over: one for each other order that is met
before it, and one to start again. -/
def patience (S : Finset String) (x cursor : String) : Nat :=
  (ahead S x cursor).card + if cursor < x then 0 else 1

theorem sorted_lt_of_begins {l v : List String} (hl : l.Pairwise (· < ·)) (hv : v <+: l)
    (hx : x ∈ l) (hnot : x ∉ v) : ∀ k ∈ v, k < x := by
  obtain ⟨w, rfl⟩ := hv
  have hxw : x ∈ w := (List.mem_append.mp hx).resolve_left hnot
  exact fun k hk => (List.pairwise_append.mp hl).2.2 k hk x hxw

/-- A page that does not have an order beyond the cursor is full, and ends before it. -/
theorem page_full (hj : Sound ethers j) (hx : x ∈ candidates j) (hafter : after < x)
    (hnot : x ∉ (beyond j after).take 100) : ((beyond j after).take 100).length = 100 ∧
      ∀ k ∈ (beyond j after).take 100, k < x := by
  have hin : x ∈ beyond j after := mem_beyond.mpr ⟨hx, hafter⟩
  refine ⟨?_, sorted_lt_of_begins (beyond_sorted _ hj) ( List.take_prefix 100 _) hin hnot⟩
  rw [List.length_take]
  refine Nat.min_eq_left (Nat.le_of_lt (Nat.lt_of_not_le fun hshort => hnot ?_))
  rw [List.take_of_length_le hshort]
  exact hin

/-- A call that examines some orders beyond the cursor and stops at the last of them. -/
theorem patience_examined {S : Finset String} {first : List String} {last cursor : String}
    (hsorted : (first ++ [last]).Pairwise (· < ·)) (hin : ∀ k ∈ first ++ [last], k ∈ S ∧ cursor < k)
    (hnot : x ∉ first ++ [last]) (hbelow : cursor < x → ∀ k ∈ first ++ [last], k < x) :
    patience S x last + 1 ≤ patience S x cursor := by
  have hside : ∀ k ∈ first ++ [last], (cursor < x ↔ k < x) := fun k hk =>
    ⟨fun h => hbelow h k hk, fun h => lt_trans (hin k hk).2 h⟩
  have hrising : (first ++ [last]).Pairwise fun a b => place x a < place x b :=
    hsorted.imp_of_mem fun ha hb hlt =>
      place_lt_iff.mpr (Or.inr ⟨(hside _ ha).symm.trans (hside _ hb), hlt⟩)
  have hcard := ahead_rising (S := S) (x := x) (c := cursor) hrising fun k hk =>
    ⟨(hin k hk).1, fun h => hnot (h ▸ hk), place_lt_iff.mpr (Or.inr ⟨hside k hk, (hin k hk).2⟩)⟩
  have hlast : last ∈ first ++ [last] := List.mem_append_right first List.mem_cons_self
  rw [List.length_append, List.length_singleton] at hcard
  rw [patience, patience, if_congr (hside last hlast).symm rfl rfl]
  omega

/-- A call that starts again after some orders beyond the cursor, or after none. -/
theorem patience_reset {S : Finset String} {v : List String} {cursor : String} (hx : x ≠ "")
    (hnodup : v.Nodup) (hin : ∀ k ∈ v, k ∈ S ∧ cursor < k) (hcursor : ¬ cursor < x) :
    patience S x "" + v.length + 1 ≤ patience S x cursor := by
  have hempty : "" < x := lt_of_le_of_ne (empty_le x) hx.symm
  have habove : ∀ k ∈ v, ¬ k < x := fun k hk h => hcursor (lt_trans (hin k hk).2 h)
  have hcard := ahead_card (S := S) (x := x) (c := cursor) hnodup
    (fun k hk => mem_ahead.mpr ⟨(hin k hk).1, fun h => hcursor (h ▸ (hin k hk).2),
      place_lt_iff.mpr (Or.inr ⟨iff_of_false hcursor (habove k hk), (hin k hk).2⟩)⟩)
    (le_of_lt (place_lt_iff.mpr (Or.inl ⟨not_lt.mp hcursor, hempty⟩)))
    (fun k hk => le_of_lt (place_lt_iff.mpr (Or.inl ⟨not_lt.mp (habove k hk), hempty⟩)))
  rw [patience, patience, if_pos hempty, if_neg hcursor]
  omega

/-- The orders that a loop examines: in the order of their ids, all beyond the cursor, up
to where it stops, and all below an order beyond the cursor that is not among them. -/
theorem examined_spec {head : Block} {look : String → Look} {cursor : String} {page : List OrderRow}
    (hj : Sound setup.ethers j) (hne : page ≠ [])
    (hids : page.map (fun order => order.intent.id) = (beyond j cursor).take 100) :
    ∃ first last, (examinePage setup head look page cursor j).examined = first ++ [last] ∧
      (examinePage setup head look page cursor j).cursor = last ∧
      (first ++ [last]).Pairwise (· < ·) ∧ (∀ k ∈ first ++ [last], k ∈ candidates j ∧ cursor < k) ∧
      (x ∈ candidates j → x ∉ first ++ [last] → cursor < x → (∀ k ∈ first ++ [last], k < x) ∧
        ((examinePage setup head look page cursor j).threw = none → page.length = 100)) := by
  obtain ⟨first, last, hexamined, hcursor, hbegins, hwhole⟩ := examinePage_examined (j := j) hne
  rw [hids] at hbegins hwhole
  have hsorted := (beyond_sorted cursor hj).sublist (List.take_sublist 100 _)
  refine ⟨first, last, hexamined, hcursor, hsorted.sublist hbegins.sublist,
    fun k hk => mem_beyond.mp (List.mem_of_mem_take (hbegins.subset hk)), fun hx hnot hlt => ?_⟩
  · by_cases hon : x ∈ (beyond j cursor).take 100
    · exact ⟨sorted_lt_of_begins hsorted hbegins hon hnot, fun hthrew => absurd hon (hwhole hthrew ▸ hnot)⟩
    · obtain ⟨hlength, hbelow⟩ := page_full hj hx hlt hon
      refine ⟨fun k hk => hbelow k (hbegins.subset hk), fun _ => ?_⟩
      rw [← hlength, ← hids, List.length_map]

/-- A call that passes the checks and does not examine an order leaves less patience. -/
theorem Outcome.patience_lt {S : Finset String} {look : String → Look} {cursor : String} {r : Report}
    (h : Outcome setup look cursor j r) (hj : Sound setup.ethers j) (hpassed : r.passed = true)
    (hx : x ∈ candidates j) (hS : ∀ id ∈ candidates j, id ∈ S) (hnot : x ∉ r.examined) :
    patience S x r.cursor + 1 ≤ patience S x cursor := by
  have hnonempty := id_ne_empty hj hx
  cases h with
  | refused => cases hpassed
  | empty hpage =>
      -- nothing is beyond the cursor, this order neither
      have hbehind : ¬ cursor < x := fun hlt => by
        have hfull := (page_full hj hx hlt (hpage ▸ List.not_mem_nil)).1
        rw [hpage] at hfull
        cases hfull
      exact patience_reset (v := []) hnonempty List.nodup_nil (fun k hk => by cases hk) hbehind
  | short head page hids hne hthrew hlength =>
      obtain ⟨first, last, hexamined, -, hsorted, hin, hmissed⟩ := examined_spec (x := x) hj
        hne hids
      have hnot' : x ∉ first ++ [last] := hexamined ▸ hnot
      -- a short page has every order beyond the cursor, and this one was gone through
      have hbehind : ¬ cursor < x := fun hlt => by
        have hfull := (hmissed hx hnot' hlt).2 hthrew
        omega
      have hreset := patience_reset (S := S) hnonempty (hsorted.imp ne_of_lt)
        (fun k hk => ⟨hS k (hin k hk).1, (hin k hk).2⟩) hbehind
      show patience S x "" + 1 ≤ _
      omega
  | stopped head page hids hne =>
      obtain ⟨first, last, hexamined, hcursor, hsorted, hin, hmissed⟩ := examined_spec (x := x) hj
        hne hids
      have hnot' : x ∉ first ++ [last] := hexamined ▸ hnot
      show patience S x (examinePage setup head look page cursor j).cursor + 1 ≤ _
      rw [hcursor]
      exact patience_examined hsorted
        (fun k hk => ⟨hS k (hin k hk).1, (hin k hk).2⟩) hnot' fun hlt => (hmissed hx hnot' hlt).1

theorem Outcome.found {look : String → Look} {cursor : String} {r : Report}
    (h : Outcome setup look cursor j r) : r.found = j := by
  cases h <;> rfl

/-- So many calls as pass the checks without examining an order, so much patience. -/
theorem reports_patience {S : Finset String} {rounds : List Round} {s : State}
    (hs : Sound setup.ethers s.journal)
    (hstays : ∀ r ∈ reports setup rounds s, r.passed = true →
      x ∈ candidates r.found ∧ ∀ id ∈ candidates r.found, id ∈ S)
    (hnot : ∀ r ∈ reports setup rounds s, x ∉ r.examined) :
    ((reports setup rounds s).filter Report.passed).length ≤ patience S x s.cursor := by
  induction rounds generalizing s with
  | nil => exact Nat.zero_le _
  | cons round rest ih =>
      have houtcome := reconcile_outcome round hs
      have hfound := exec_sound hs round.before
      rw [reports] at hstays hnot ⊢
      rw [List.forall_mem_cons] at hstays hnot
      generalize reconcile setup round s = r at *
      have hrest := ih (s := ⟨r.journal, r.cursor⟩) (houtcome.sound hfound) hstays.2 hnot.2
      dsimp only at hrest
      by_cases hpassed : r.passed = true
      · obtain ⟨hx, hS⟩ := hstays.1 hpassed
        rw [houtcome.found] at hx hS
        have hstep := houtcome.patience_lt hfound hpassed hx hS hnot.1
        rw [List.filter_cons_of_pos hpassed, List.length_cons]
        omega
      · rw [List.filter_cons_of_neg hpassed]
        cases houtcome with
        | refused => exact hrest
        | _ => exact absurd rfl hpassed

/-! ## What a call changes -/

/-- The journal comes from another one by what others do to it and by recordings, in this
order. -/
inductive Changes (ethers : Ethers) : Journal → List Recording → Journal → Prop
  | done (j : Journal) : Changes ethers j [] j
  | other {j next last : Journal} {c : Call} {recordings : List Recording}
      (h : call ethers c j = .ok next) (hrest : Changes ethers next recordings last) :
      Changes ethers j recordings last
  | record {e : Recording} {last : Journal} {recordings : List Recording}
      (hrest : Changes ethers e.after recordings last) :
      Changes ethers e.before (e :: recordings) last

theorem Changes.exec (calls : List Call) {recordings : List Recording} {last : Journal}
    (h : Changes ethers (exec (call ethers) j calls) recordings last) :
    Changes ethers j recordings last := by
  induction calls generalizing j with
  | nil => exact h
  | cons c rest ih =>
      rw [exec_cons] at h
      cases hc : call ethers c j with
      | ok next =>
          rw [apply_ok hc] at h
          exact .other hc (ih h)
      | error e =>
          rw [apply_error hc] at h
          exact ih h

/-- A recording leaves every other order as it was. -/
def OnlyOwn (e : Recording) : Prop := ∀ id ≠ e.id, e.after.orders.get? id = e.before.orders.get? id

theorem recordOutcome_own (hj : Sound ethers j) {state : Conclusion} {evidence : String}
    (h : recordOutcome ethers j id state evidence = .ok j') : OnlyOwn ⟨id, j, j'⟩ := by
  obtain ⟨row, -, -, -, -, rfl⟩ := recordOutcome_eq_ok hj h
  exact fun other hne => OrderedMap.get?_set_of_ne hne _ _

/-- Every change of a loop is another's or a recording, and a recording is of an order that
was examined without throwing, and changes that order only. -/
theorem examinePage_changes {head : Block} {look : String → Look} {cursor : String}
    {page : List OrderRow} (hj : Sound setup.ethers j)
    (hnodup : (page.map fun order => order.intent.id).Nodup) :
    let done := examinePage setup head look page cursor j
    Changes setup.ethers j done.recordings done.journal ∧
      done.examined ⊆ page.map (fun order => order.intent.id) ∧
      (∀ id, done.threw = some id → id ∈ done.examined) ∧
      ∀ e ∈ done.recordings, e.id ∈ done.examined ∧ done.threw ≠ some e.id ∧ OnlyOwn e := by
  induction page generalizing cursor j with
  | nil => exact ⟨.done j, List.Subset.refl _, (fun _ h => by cases h), fun e he => by cases he⟩
  | cons order rest ih =>
      have hothers := exec_sound hj (look order.intent.id).others
      obtain ⟨hnew, hrestNodup⟩ := List.nodup_cons.mp hnodup
      rw [examinePage]
      dsimp only
      split
      · refine ⟨.exec _ (.done _), ?_, fun _ h => ?_, fun e he => by cases he⟩
        · exact List.cons_subset.mpr ⟨List.mem_cons_self, List.nil_subset _⟩
        · cases h
          exact List.mem_cons_self
      · next next recorded heq =>
        have hrecorded : Sound setup.ethers next ∧
            (∀ recordings last, Changes setup.ethers next recordings last →
              Changes setup.ethers j (recorded ++ recordings) last) ∧
            ∀ e ∈ recorded, e.id = order.intent.id ∧ OnlyOwn e := by
          simp only [bind_eq_ok] at heq
          obtain ⟨outcome, -, heq⟩ := heq
          cases outcome with
          | none =>
              cases heq
              exact ⟨hothers, fun _ _ h => .exec _ h, fun e he => by cases he⟩
          | some outcome =>
              simp only [bind_eq_ok] at heq
              obtain ⟨last, hrecord, heq⟩ := heq
              cases heq
              refine ⟨call_sound (c := .recordOutcome _ _ _) hothers hrecord,
                fun recordings _ h => .exec _ (.record (e := ⟨order.intent.id, _, _⟩) h), fun e he => ?_⟩
              obtain rfl := List.mem_singleton.mp he
              exact ⟨rfl, recordOutcome_own hothers hrecord⟩
        obtain ⟨hsound, hchanges, hown⟩ := hrecorded
        obtain ⟨hrest, hsubset, hthrew, hall⟩ := ih hsound hrestNodup
        refine ⟨hchanges _ _ hrest, List.cons_subset_cons _ hsubset,
          fun id h => List.mem_cons_of_mem _ (hthrew id h), fun e he => ?_⟩
        rcases List.mem_append.mp he with he | he
        · obtain ⟨hid, hownRow⟩ := hown e he
          rw [hid]
          exact ⟨List.mem_cons_self, fun h => hnew (hsubset (hthrew _ h)), hownRow⟩
        · obtain ⟨hexamined, hnot, hownRow⟩ := hall e he
          exact ⟨List.mem_cons_of_mem _ hexamined, hnot, hownRow⟩

def sampleSetup : Setup := ⟨sampleEthers, [], none⟩

/-- The chain and its head are there; the order has no deployment, so its examination
throws. -/
def sampleRound : Round where
  before := []
  chainId := .ok 46630
  readsTransactions := true
  head := .ok (some ⟨9, "0x"⟩)
  look _ := ⟨[], ⟨.ok none, .ok none, .ok none, .ok (), .ok none⟩⟩

end OrderReconciler
end AlphaForge
