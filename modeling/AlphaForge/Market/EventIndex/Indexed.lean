/-
The event index after every run of polls.

What a poll can do is said once for each of its phases.  From that, the chain of
the index survives every run, whichever requests fail and however the chain moves
between them, and a poll that throws leaves the index as its last transaction
left it.
-/
import AlphaForge.Market.EventIndex.Chain
import AlphaForge.Market.EventIndex.Tick

namespace AlphaForge
namespace EventIndex

open Evm Market
open Commit (await write final Triple run_bind run_bind_error)

/-! ## What the phases of a poll do -/

section

variable (c : Config) (m : Manifest) (a : Answers) (w : Writes) (head : IndexBlock) (d : Durable)

/-- A rewind throws before its first write, finds nothing to do, throws between its
two writes, or makes both. -/
inductive RewindEnds : EStateM.Result String Durable Unit → Prop where
  | failed (e : String) : RewindEnds (.error e d)
  | stands (h : rewindFrom m d.index a.rewindHeader head = .ok none) : RewindEnds (.ok () d)
  | torn (start : Nat) (ancestor : Option IndexBlock) (e : String)
      (h : rewindFrom m d.index a.rewindHeader head = .ok (some (start, ancestor)))
      (hrewound : w.rewound = true) :
      RewindEnds (.error e { d with index := d.index.rewound start ancestor })
  | done (start : Nat) (ancestor : Option IndexBlock) (store : Projector.Store)
      (h : rewindFrom m d.index a.rewindHeader head = .ok (some (start, ancestor)))
      (hstore : Projector.rollbackFrom start d.store = .ok store) :
      RewindEnds (.ok () { index := d.index.rewound start ancestor, store })

theorem rewind_ends : RewindEnds m a w head d (rewind m a w head d) := by
  cases hfrom : rewindFrom m d.index a.rewindHeader head with
  | error e =>
      have hrun : rewind m a w head d = .error e d := by
        show (await (rewindFrom m d.index a.rewindHeader head) >>= _) d = _
        rw [hfrom]
        rfl
      rw [hrun]
      exact .failed e
  | ok found =>
      cases found with
      | none =>
          have hrun : rewind m a w head d = .ok () d := by
            show (await (rewindFrom m d.index a.rewindHeader head) >>= _) d = _
            rw [hfrom]
            rfl
          rw [hrun]
          exact .stands hfrom
      | some found =>
          obtain ⟨start, ancestor⟩ := found
          have hrun : rewind m a w head d =
              (write w.rewound "INDEX_RPC_FAILED"
                (fun s : Durable => { s with index := s.index.rewound start ancestor }) >>= fun _ =>
                await (Projector.rollbackFrom start d.store) >>= fun store =>
                  write w.rolledBack "INDEX_RPC_FAILED" fun s : Durable => { s with store }) d := by
            show (await (rewindFrom m d.index a.rewindHeader head) >>= _) d = _
            rw [hfrom]
            rfl
          rw [hrun]
          cases hrewound : w.rewound with
          | false => exact .failed "INDEX_RPC_FAILED"
          | true =>
              cases hstore : Projector.rollbackFrom start d.store with
              | error e => exact .torn start ancestor e hfrom hrewound
              | ok store =>
                  cases w.rolledBack with
                  | false => exact .torn start ancestor "INDEX_RPC_FAILED" hfrom hrewound
                  | true => exact .done start ancestor store hfrom hstore

variable (maxBlocks : Nat)

/-- The last block of a scan from the cursor. -/
def Index.last (i : Index) : Nat := min (i.next c.manifest + maxBlocks - 1) head.number

/-- A scan throws before it writes, has no block to take, or writes. -/
inductive AdvanceEnds : EStateM.Result String Durable Unit → Prop where
  | failed (e : String) : AdvanceEnds (.error e d)
  | idle (h : d.index.last c head maxBlocks < d.index.next c.manifest) : AdvanceEnds (.ok () d)
  | done (batch : Batch) (index : Index)
      (hle : d.index.next c.manifest ≤ d.index.last c head maxBlocks)
      (hgather : gather c d.index a.scan (d.index.next c.manifest) (d.index.last c head maxBlocks)
        head.number = .ok batch)
      (hscanned : d.index.scanned c head.number batch = .ok index) :
      AdvanceEnds (.ok () { d with index })

theorem advance_ends : AdvanceEnds c a head d maxBlocks (advance c maxBlocks a w head d) := by
  have hrun : advance c maxBlocks a w head d =
      (if d.index.next c.manifest ≤ d.index.last c head maxBlocks then
        await (scan c d.index a.scan (d.index.next c.manifest) (d.index.last c head maxBlocks)
          head.number) >>= fun index =>
            write w.scanned "INDEX_RPC_FAILED" fun s : Durable => { s with index }
        else pure () : Program Unit) d := rfl
  rw [hrun]
  by_cases hle : d.index.next c.manifest ≤ d.index.last c head maxBlocks
  · rw [if_pos hle]
    cases hscan : scan c d.index a.scan (d.index.next c.manifest) (d.index.last c head maxBlocks)
      head.number with
    | error e => exact .failed e
    | ok index =>
        obtain ⟨batch, hgather, hscanned⟩ := bind_eq_ok.mp hscan
        cases w.scanned with
        | false => exact .failed "INDEX_RPC_FAILED"
        | true => exact .done batch index hle hgather hscanned
  · rw [if_neg hle]
    exact .idle (Nat.lt_of_not_le hle)

/-- A publication throws and writes nothing, or leaves the projection as it was or as
committed. -/
inductive PublishEnds (latest : IndexBlock) : EStateM.Result String Durable Unit → Prop where
  | failed (e : String) (h : w.published = true → commitAt c a d latest = .error e) :
      PublishEnds latest (.error e d)
  | same (h : commitAt c a d latest = .ok none) : PublishEnds latest (.ok () d)
  | done (store : Projector.Store) (h : commitAt c a d latest = .ok (some store)) :
      PublishEnds latest (.ok () { d with store })

theorem publish_ends (latest : IndexBlock) :
    PublishEnds c a w d latest (publish c a w latest d) := by
  cases hcommit : commitAt c a d latest with
  | error e =>
      have hrun : publish c a w latest d = .error e d := by
        show (await (commitAt c a d latest) >>= _) d = _
        rw [hcommit]
        rfl
      rw [hrun]
      exact .failed e (fun _ => hcommit)
  | ok written =>
      have hrun : publish c a w latest d = (written.elim (pure ())
          (fun store => write w.published "INDEX_RPC_FAILED"
            fun s : Durable => { s with store }) : Program Unit) d := by
        show (await (commitAt c a d latest) >>= _) d = _
        rw [hcommit]
        cases written <;> rfl
      rw [hrun]
      cases written with
      | none => exact .same hcommit
      | some store =>
          cases hwrite : w.published with
          | false =>
              refine .failed "INDEX_RPC_FAILED" (fun h => ?_)
              rw [hwrite] at h
              cases h
          | true => exact .done store hcommit

end

/-- The end of a poll that is not at the head, or its publication. -/
theorem settle_run (c : Config) (a : Answers) (w : Writes) (head : IndexBlock) (d : Durable) :
    ((∀ latest, d.index.cursor = some latest → latest.number < head.number) ∧
      settle c a w head d = .ok .syncing d) ∨
    ∃ latest, d.index.cursor = some latest ∧ head.number ≤ latest.number ∧
      settle c a w head d = (publish c a w latest >>= fun _ => pure Health.healthy) d := by
  cases hcursor : d.index.cursor with
  | none =>
      refine Or.inl ⟨fun latest h => (by cases h), ?_⟩
      rw [settle, run_bind (rfl : (get : Program Durable) d = .ok d d)]
      simp only [hcursor]
      rfl
  | some latest =>
      have hrun : settle c a w head d = (if latest.number < head.number then pure Health.syncing
          else publish c a w latest >>= fun _ => pure Health.healthy : Program Health) d := by
        rw [settle, run_bind (rfl : (get : Program Durable) d = .ok d d)]
        simp only [hcursor]
      by_cases hlt : latest.number < head.number
      · rw [if_pos hlt] at hrun
        refine Or.inl ⟨fun other h => ?_, hrun⟩
        cases h
        exact hlt
      · rw [if_neg hlt] at hrun
        exact Or.inr ⟨latest, rfl, Nat.le_of_not_lt hlt, hrun⟩

theorem settle_index (c : Config) (a : Answers) (w : Writes) (head : IndexBlock) (d : Durable) :
    (final (settle c a w head d)).index = d.index := by
  rcases settle_run c a w head d with ⟨_, hrun⟩ | ⟨latest, _, _, hrun⟩
  · rw [hrun]
    rfl
  · rw [hrun]
    have hends := publish_ends c a w d latest
    cases hpublish : publish c a w latest d with
    | ok _ d' =>
        rw [run_bind hpublish]
        rw [hpublish] at hends
        cases hends <;> rfl
    | error e d' =>
        rw [run_bind_error hpublish]
        rw [hpublish] at hends
        cases hends
        rfl

/-- A property that every phase of a poll keeps, whether it returns or throws, is kept
by the poll. -/
theorem tick_keeps {c : Config} {maxBlocks : Nat} {a : Answers} {w : Writes} {P : Durable → Prop}
    (hrewind : ∀ head d r, P d → RewindEnds c.manifest a w head d r → P (final r))
    (hadvance : ∀ head d r, P d → AdvanceEnds c a head d maxBlocks r → P (final r))
    (hpublish : ∀ d latest r, P d → d.index.cursor = some latest →
      PublishEnds c a w d latest r → P (final r))
    {d : Durable} (hd : P d) : P (final (tick c maxBlocks a w d)) := by
  have hrewindTriple : ∀ head, Triple P (rewind c.manifest a w head) (fun _ => P) P :=
    fun head => .of_final fun d hP => hrewind head d _ hP (rewind_ends c.manifest a w head d)
  have hadvanceTriple : ∀ head, Triple P (advance c maxBlocks a w head) (fun _ => P) P :=
    fun head => .of_final fun d hP => hadvance head d _ hP (advance_ends c a w head d maxBlocks)
  have hsettleTriple : ∀ head, Triple P (settle c a w head) (fun _ => P) P := by
    intro head
    refine .of_final fun d hP => ?_
    rcases settle_run c a w head d with ⟨_, hrun⟩ | ⟨latest, hcursor, _, hrun⟩
    · rw [hrun]
      exact hP
    · rw [hrun]
      have hends := hpublish d latest _ hP hcursor (publish_ends c a w d latest)
      cases hrun : publish c a w latest d with
      | ok _ d' =>
          rw [hrun] at hends
          rw [run_bind hrun]
          exact hends
      | error e d' =>
          rw [hrun] at hends
          rw [run_bind_error hrun]
          exact hends
  have htick : Triple P (tick c maxBlocks a w) (fun _ => P) P :=
    (Triple.await (fun _ _ _ h => h) (fun _ h => h)).bind fun head =>
      (hrewindTriple head).bind fun _ => (hadvanceTriple head).bind fun _ => hsettleTriple head
  exact htick.final hd

/-! ## The chain after every run -/

/-- A canonical block row. -/
def Index.Canonical (s : Index) (number : Nat) (hash : Bytes32) : Prop :=
  ∃ row, s.blocks.get? (number, hash) = some row ∧ row.canonical = true

/-- The canonical rows are one chain from the deployment block to the cursor. -/
structure Indexed (m : Manifest) (s : Index) : Prop where
  one : ∀ n h h', s.Canonical n h → s.Canonical n h' → h = h'
  heights : ∀ n, (∃ h, s.Canonical n h) ↔
    ∃ cursor, s.cursor = some cursor ∧ m.deploymentBlock ≤ n ∧ n ≤ cursor.number
  links : ∀ n h row h', s.blocks.get? (n + 1, h) = some row → row.canonical = true →
    s.Canonical n h' → row.parentHash = h'
  events : ∀ key row, s.events.get? key = some row → row.canonical = true →
    s.Canonical row.blockNumber key.blockHash
  watch : ∀ a h row, s.watch.get? (a, some h) = some row → row.canonical = true →
    s.Canonical row.number h

theorem ChainOf.indexed {t : BlockTree} {m : Manifest} {s : Index} {chain : List IndexBlock}
    (h : ChainOf t m s chain) : Indexed m s := by
  have hmem : ∀ {n hash}, s.Canonical n hash → ∃ b ∈ chain, At n hash b :=
    fun hcanonical => (h.blocks.canonical _ _).mp hcanonical
  refine ⟨?_, ?_, ?_, ?_, ?_⟩
  · intro n hash hash' hc hc'
    obtain ⟨b, hb, hat⟩ := hmem hc
    obtain ⟨b', hb', hat'⟩ := hmem hc'
    have heq := h.linked.eq_of_number hb hb' (hat.1.trans hat'.1.symm)
    rw [← hat.2, ← hat'.2, heq]
  · intro n
    constructor
    · rintro ⟨hash, hc⟩
      obtain ⟨b, hb, hat⟩ := hmem hc
      rw [h.cursor_eq, ← hat.1]
      cases hchain : chain with
      | nil =>
          rw [hchain] at hb
          cases hb
      | cons top rest =>
          have hlinked := h.linked
          rw [hchain] at hb hlinked
          exact ⟨top, rfl, h.deployment_le (by rw [hchain]; exact hb), hlinked.le_head hb⟩
    · rintro ⟨cursor, hcursor, hlow, hhigh⟩
      rw [h.cursor_eq] at hcursor
      have htop := List.mem_of_mem_head? (Option.mem_def.mpr hcursor)
      obtain ⟨low, hlast⟩ : ∃ low, chain.getLast? = some low :=
        ⟨_, List.getLast?_eq_some_getLast (List.ne_nil_of_mem htop)⟩
      obtain ⟨b, hb, hnumber⟩ := h.linked.exists_number htop hlast (n := n)
        (by rw [h.bottom low hlast]; exact hlow) hhigh
      exact ⟨b.hash, (h.blocks.canonical n b.hash).mpr ⟨b, hb, hnumber, rfl⟩⟩
  · intro n hash row hash' hrow hcanonical hbelow
    obtain ⟨b, hb, hat⟩ := hmem ⟨row, hrow, hcanonical⟩
    obtain ⟨below, hin, hbat⟩ := hmem hbelow
    have hparent := h.linked.parent_eq hb hin (by rw [hat.1, hbat.1])
    have hsame := t.unique _ _ (h.blocks.genuine _ _ row hrow) (h.genuine b hb) hat.2.symm
    rw [← hbat.2, ← hparent, ← hsame]
  · intro key row hrow hcanonical
    exact (h.blocks.canonical _ _).mpr ((h.events key row hrow).2 hcanonical)
  · intro a hash row hrow hcanonical
    exact (h.blocks.canonical _ _).mpr ((h.watch a hash row hrow).2 hcanonical)

/-- The answers give headers of blocks that exist. -/
def Answers.Genuine (t : BlockTree) (a : Answers) : Prop :=
  ∀ n b, a.scan.header n = .ok b → t.genuine b

theorem tick_chainOf {t : BlockTree} {c : Config} {maxBlocks : Nat} {a : Answers} {w : Writes}
    (ha : a.Genuine t) {d : Durable} (hd : ∃ chain, ChainOf t c.manifest d.index chain) :
    ∃ chain, ChainOf t c.manifest (final (tick c maxBlocks a w d)).index chain := by
  refine tick_keeps (P := fun d => ∃ chain, ChainOf t c.manifest d.index chain) ?_ ?_ ?_ hd
  · rintro head d r ⟨chain, hchain⟩ hends
    cases hends with
    | failed e => exact ⟨chain, hchain⟩
    | stands h => exact ⟨chain, hchain⟩
    | torn start ancestor e h hrewound =>
        exact ⟨_, rewound_chainOf hchain (rewindFrom_sound hchain h)⟩
    | done start ancestor store h hstore =>
        exact ⟨_, rewound_chainOf hchain (rewindFrom_sound hchain h)⟩
  · rintro head d r ⟨chain, hchain⟩ hends
    cases hends with
    | failed e => exact ⟨chain, hchain⟩
    | idle h => exact ⟨chain, hchain⟩
    | done batch index hle hgather hscanned =>
        exact ⟨_, scan_chainOf hchain hle ha hgather hscanned⟩
  · rintro d latest r ⟨chain, hchain⟩ _ hends
    cases hends with
    | failed e h => exact ⟨chain, hchain⟩
    | same h => exact ⟨chain, hchain⟩
    | done store h => exact ⟨chain, hchain⟩

theorem poll_durable (c : Config) (a : Answers) (w : Writes) (s : System) :
    (s.poll c a w).durable = final (tick c s.maxBlocks a w s.durable) := by
  unfold System.poll
  split <;> next hrun => rw [hrun]; rfl

/-- The run's polls are answered with blocks that exist. -/
def GenuineRun (t : BlockTree) (actions : List Action) : Prop :=
  ∀ a w, Action.poll a w ∈ actions → a.Genuine t

theorem start_eq_ok {d : Durable} {maxBlocks : Nat} {s : System} (h : start d maxBlocks = .ok s) :
    1 ≤ maxBlocks ∧ maxBlocks ≤ 2000 ∧ s = ⟨d, maxBlocks, .notRun, none⟩ := by
  simp only [start, bind_eq_ok, ensure_eq_ok, pure_eq_ok] at h
  obtain ⟨_, hpolicy, rfl⟩ := h
  exact ⟨hpolicy.1, hpolicy.2, rfl⟩

theorem run_chainOf {t : BlockTree} {c : Config} {s : System} {actions : List Action}
    (hgenuine : GenuineRun t actions) (hs : ∃ chain, ChainOf t c.manifest s.durable.index chain) :
    ∃ chain, ChainOf t c.manifest (Machine.exec (step c) s actions).durable.index chain := by
  induction actions generalizing s with
  | nil => exact hs
  | cons action rest ih =>
      rw [Machine.exec_cons]
      refine ih (fun a w hmem => hgenuine a w (List.mem_cons_of_mem _ hmem)) ?_
      cases action with
      | poll a w =>
          rw [Machine.apply_ok (rfl : step c (.poll a w) s = .ok (s.poll c a w)), poll_durable]
          exact tick_chainOf (hgenuine a w List.mem_cons_self) hs
      | restart maxBlocks =>
          cases hstep : step c (.restart maxBlocks) s with
          | error e =>
              rw [Machine.apply_error hstep]
              exact hs
          | ok s' =>
              rw [Machine.apply_ok hstep, (start_eq_ok hstep).2.2]
              exact hs

/-- The index as it was, or as after the rewind of a poll. -/
def AfterRewind (c : Config) (a : Answers) (i i' : Index) : Prop :=
  i' = i ∨ ∃ head start ancestor,
    rewindFrom c.manifest i a.rewindHeader head = .ok (some (start, ancestor)) ∧
      i' = i.rewound start ancestor

/-- The index as after the scan that follows. -/
def AfterScan (c : Config) (a : Answers) (i i' : Index) : Prop :=
  ∃ start until_ head, scan c i a.scan start until_ head = .ok i'

theorem tick_index (c : Config) (maxBlocks : Nat) (a : Answers) (w : Writes) (d : Durable) :
    ∃ j, AfterRewind c a d.index j ∧
      ((final (tick c maxBlocks a w d)).index = j ∨
        AfterScan c a j (final (tick c maxBlocks a w d)).index) := by
  have hstart : Triple (fun d' => d' = d) (await (readHead c.manifest a) : Program IndexBlock)
      (fun _ d' => d' = d) (fun d' => ∃ j, AfterRewind c a d.index j ∧
        (d'.index = j ∨ AfterScan c a j d'.index)) := by
    refine .await (fun _ _ _ h => h) (fun d' h => ⟨d.index, Or.inl rfl, Or.inl ?_⟩)
    rw [h]
  have hrewind : ∀ head, Triple (fun d' => d' = d) (rewind c.manifest a w head)
      (fun _ d' => AfterRewind c a d.index d'.index) (fun d' => ∃ j, AfterRewind c a d.index j ∧
        (d'.index = j ∨ AfterScan c a j d'.index)) := by
    rintro head d' rfl
    have hends := rewind_ends c.manifest a w head d'
    refine ⟨fun _ d₁ hrun => ?_, fun e d₁ hrun => ?_⟩
    · rw [hrun] at hends
      cases hends with
      | stands h => exact Or.inl rfl
      | done start ancestor store h hstore => exact Or.inr ⟨head, start, ancestor, h, rfl⟩
    · rw [hrun] at hends
      cases hends with
      | failed => exact ⟨d'.index, Or.inl rfl, Or.inl rfl⟩
      | torn start ancestor _ h hrewound =>
          exact ⟨_, Or.inr ⟨head, start, ancestor, h, rfl⟩, Or.inl rfl⟩
  have hadvance : ∀ head, Triple (fun d' => AfterRewind c a d.index d'.index)
      (advance c maxBlocks a w head)
      (fun _ d' => ∃ j, AfterRewind c a d.index j ∧ (d'.index = j ∨ AfterScan c a j d'.index))
      (fun d' => ∃ j, AfterRewind c a d.index j ∧ (d'.index = j ∨ AfterScan c a j d'.index)) := by
    intro head
    refine .of_final fun d' hd' => ?_
    have hends := advance_ends c a w head d' maxBlocks
    generalize advance c maxBlocks a w head d' = r at hends ⊢
    cases hends with
    | failed e => exact ⟨d'.index, hd', Or.inl rfl⟩
    | idle h => exact ⟨d'.index, hd', Or.inl rfl⟩
    | done batch index hle hgather hscanned =>
        exact ⟨d'.index, hd', Or.inr ⟨_, _, _, bind_eq_ok.mpr ⟨batch, hgather, hscanned⟩⟩⟩
  have hsettle : ∀ head, Triple
      (fun d' => ∃ j, AfterRewind c a d.index j ∧ (d'.index = j ∨ AfterScan c a j d'.index))
      (settle c a w head)
      (fun _ d' => ∃ j, AfterRewind c a d.index j ∧ (d'.index = j ∨ AfterScan c a j d'.index))
      (fun d' => ∃ j, AfterRewind c a d.index j ∧ (d'.index = j ∨ AfterScan c a j d'.index)) := by
    intro head
    refine .of_final fun d' hd' => ?_
    have hindex : (final (settle c a w head d')).index = d'.index := settle_index c a w head d'
    rw [hindex]
    exact hd'
  have htick := hstart.bind fun head => (hrewind head).bind fun _ =>
    (hadvance head).bind fun _ => hsettle head
  exact htick.final rfl

/-- After every run the canonical rows are one chain up to the cursor, and a poll that
throws leaves the index as it was, as after its rewind, or as after its scan. -/
theorem index_chain_in_every_run (t : BlockTree) (c : Config) (maxBlocks : Nat) (s : System)
    (hcreate : create c maxBlocks = .ok s) (actions : List Action)
    (hgenuine : GenuineRun t actions) :
    Indexed c.manifest (Machine.exec (step c) s actions).durable.index ∧
    ∀ a w e d', tick c (Machine.exec (step c) s actions).maxBlocks a w
        (Machine.exec (step c) s actions).durable = .error e d' →
      ∃ j, AfterRewind c a (Machine.exec (step c) s actions).durable.index j ∧
        (d'.index = j ∨ AfterScan c a j d'.index) := by
  constructor
  · obtain ⟨index, hindex, hstart⟩ := bind_eq_ok.mp hcreate
    have hchain : ∃ chain, ChainOf t c.manifest s.durable.index chain := by
      rw [(start_eq_ok hstart).2.2]
      exact ⟨[], create_chainOf t hindex⟩
    obtain ⟨chain, hrun⟩ := run_chainOf hgenuine hchain
    exact hrun.indexed
  · intro a w e d' hthrow
    have hindex := tick_index c (Machine.exec (step c) s actions).maxBlocks a w
      (Machine.exec (step c) s actions).durable
    rw [hthrow] at hindex
    exact hindex

/-! ## An index of one block -/

/-- A deployment at block 0 whose contracts have emitted nothing. -/
def quietManifest : Manifest :=
  { chainId := 46630, deploymentBlock := 0, claim := 1, poolFactory := 2, vaultFactory := none,
    tsla := ⟨3, some 4, none⟩, amzn := ⟨5, none, some 6⟩, runtimeCodeHashes := [1, 2, 3, 4, 5, 6] }

def quietConfig : Config := ⟨quietManifest, fun _ _ => none⟩

def headerIn (blocks : List IndexBlock) (n : Nat) : Except String IndexBlock :=
  match blocks.find? (fun b => b.number = n) with
  | none => .error "INDEX_BLOCK_UNAVAILABLE"
  | some b => .ok b

/-- The answers of a chain without logs. -/
def quietAnswers (blocks : List IndexBlock) (head : IndexBlock)
    (snapshot : Nat → Bytes32 → Except String Projector.MarketSnapshot) : Answers :=
  { chainId := .ok 46630, latest := .ok head, rewindHeader := headerIn blocks,
    scan :=
      { header := headerIn blocks, discoveryLogs := fun _ _ _ => .ok [],
        identity := fun _ _ _ => .error "INDEX_RPC_FAILED", logs := fun _ _ _ => .ok [],
        headerAgain := headerIn blocks },
    snapshot, canonicalBlockHash := fun _ => .ok (some head.hash),
    previousHeader := headerIn blocks }

def allWrites : Writes := ⟨true, true, true, true⟩

def genesis : IndexBlock := ⟨0, 0xa0, 0, 1⟩

def genesisTree : BlockTree where
  genuine b := b = genesis
  unique _ _ hb hc _ := hb.trans hc.symm

def noSnapshot : Answers :=
  quietAnswers [genesis] genesis (fun _ _ => .error "INDEX_RPC_FAILED")

theorem noSnapshot_genuine : GenuineRun genesisTree [.poll noSnapshot allWrites] := by
  intro a w hmem
  cases List.mem_singleton.mp hmem
  intro n b hb
  show b = genesis
  by_cases hn : n = 0
  · subst hn
    exact (Except.ok.inj hb).symm
  · have hnone : [genesis].find? (fun x => x.number = n) = none := by
      simp [genesis, Ne.symm hn]
    simp only [noSnapshot, quietAnswers, headerIn, hnone] at hb
    cases hb

def quietIndex : Index :=
  ((Index.create quietManifest).toOption).getD ⟨[], none, [], []⟩

def quietSystem : System := ⟨⟨quietIndex, Projector.Store.empty⟩, 500, .notRun, none⟩

theorem quietSystem_created : create quietConfig 500 = .ok quietSystem := by decide

/-- The index after a poll whose snapshot failed. -/
theorem genesis_indexed : Indexed quietManifest
    (Machine.exec (step quietConfig) quietSystem [.poll noSnapshot allWrites]).durable.index :=
  (index_chain_in_every_run genesisTree quietConfig 500 quietSystem quietSystem_created
    [.poll noSnapshot allWrites] noSnapshot_genuine).1

/-- A poll that throws after its scan leaves the index neither as it was nor as after
any rewind. -/
theorem scan_kept_by_throwing_poll :
    ∃ d, tick quietConfig 500 noSnapshot allWrites quietSystem.durable =
        .error "INDEX_RPC_FAILED" d ∧
      d.index ≠ quietSystem.durable.index ∧
      ∀ start ancestor, d.index ≠ quietSystem.durable.index.rewound start ancestor := by
  have hblocks : quietSystem.durable.index.blocks = [] := by decide
  refine ⟨_, rfl, ?_, ?_⟩
  · intro heq
    have hnone := congrArg Index.blocks heq
    rw [hblocks] at hnone
    revert hnone
    decide
  · intro start ancestor heq
    have hnone := congrArg Index.blocks heq
    have hempty : (quietSystem.durable.index.rewound start ancestor).blocks = [] := by
      simp only [Index.rewound, hblocks]
      rfl
    rw [hempty] at hnone
    revert hnone
    decide

end EventIndex
end AlphaForge
