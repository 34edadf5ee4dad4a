/-
Runs of a state machine whose steps may be refused.

A machine is a function `step : α → σ → Except ε σ` from an action and a state.
A refused action leaves the state as it was, which is what a reverted
transaction does.  `exec` folds a list of actions, and `history` lists the
accepted ones with the state before and after each.  The rules below turn a fact
about one accepted step into a fact about every run: an invariant, a quantity
that each step changes by a known amount, and an order between two moments of
the run.
-/
import Mathlib.Algebra.BigOperators.Group.List.Basic
import Mathlib.Algebra.Ring.Nat

namespace Machine

variable {σ α ε : Type}

/-- An accepted action, with the states around it. -/
structure Transition (σ α : Type) where
  pre : σ
  action : α
  post : σ

section Run

variable (step : α → σ → Except ε σ)

def apply (s : σ) (a : α) : σ :=
  match step a s with
  | .ok s' => s'
  | .error _ => s

def exec (s : σ) (as : List α) : σ :=
  as.foldl (apply step) s

def history (s : σ) : List α → List (Transition σ α)
  | [] => []
  | a :: rest =>
      match step a s with
      | .ok s' => ⟨s, a, s'⟩ :: history s' rest
      | .error _ => history s rest

variable {step}

theorem apply_ok {s s' : σ} {a : α} (h : step a s = .ok s') : apply step s a = s' := by
  simp [apply, h]

theorem apply_error {s : σ} {a : α} {e : ε} (h : step a s = .error e) : apply step s a = s := by
  simp [apply, h]

/-- An action that is accepted, as an equation that evaluation can decide. -/
theorem step_eq_apply {s : σ} {a : α} (h : (step a s).isOk = true) :
    step a s = .ok (apply step s a) := by
  cases hs : step a s with
  | ok s' => rw [apply_ok hs]
  | error e =>
      rw [hs] at h
      cases h

theorem exec_cons (s : σ) (a : α) (rest : List α) :
    exec step s (a :: rest) = exec step (apply step s a) rest := rfl

theorem exec_append (s : σ) (as bs : List α) :
    exec step s (as ++ bs) = exec step (exec step s as) bs := by
  simp [exec, List.foldl_append]

/-- A property of one state that every accepted step keeps holds after every
run. -/
theorem exec_invariant {P : σ → Prop}
    (hstep : ∀ a s s', P s → step a s = .ok s' → P s') {s : σ} (hs : P s)
    (as : List α) : P (exec step s as) := by
  induction as generalizing s with
  | nil => exact hs
  | cons a rest ih =>
      rw [exec_cons]
      cases h : step a s with
      | ok s' => rw [apply_ok h]; exact ih (hstep a s s' hs h)
      | error e => rw [apply_error h]; exact ih hs

/-- Every entry of a history is an accepted step from a state in which the
invariant holds. -/
theorem history_invariant {P : σ → Prop}
    (hstep : ∀ a s s', P s → step a s = .ok s' → P s') {s : σ} (hs : P s)
    {as : List α} {t : Transition σ α} (ht : t ∈ history step s as) :
    P t.pre ∧ step t.action t.pre = .ok t.post ∧ P t.post := by
  induction as generalizing s with
  | nil => simp [history] at ht
  | cons a rest ih =>
      cases h : step a s with
      | ok s' =>
          simp only [history, h, List.mem_cons] at ht
          rcases ht with rfl | ht
          · exact ⟨hs, h, hstep a s s' hs h⟩
          · exact ih (hstep a s s' hs h) ht
      | error e =>
          simp only [history, h] at ht
          exact ih hs ht

theorem history_step {s : σ} {as : List α} {t : Transition σ α}
    (ht : t ∈ history step s as) : step t.action t.pre = .ok t.post :=
  (history_invariant (P := fun _ => True) (fun _ _ _ _ _ => trivial) trivial ht).2.1

theorem history_action {s : σ} {as : List α} {t : Transition σ α}
    (ht : t ∈ history step s as) : t.action ∈ as := by
  induction as generalizing s with
  | nil => simp [history] at ht
  | cons a rest ih =>
      cases h : step a s with
      | ok s' =>
          simp only [history, h, List.mem_cons] at ht
          rcases ht with rfl | ht
          · exact List.mem_cons_self
          · exact List.mem_cons_of_mem a (ih ht)
      | error e =>
          simp only [history, h] at ht
          exact List.mem_cons_of_mem a (ih ht)

/-- The step that a run takes after its first actions is in its history. -/
theorem mem_history {s s' : σ} {as bs : List α} {a : α} (h : step a (exec step s as) = .ok s') :
    ⟨exec step s as, a, s'⟩ ∈ history step s (as ++ a :: bs) := by
  induction as generalizing s with
  | nil =>
      have hfirst : step a s = .ok s' := h
      simp only [List.nil_append, history, hfirst]
      exact List.mem_cons_self
  | cons b rest ih =>
      rw [exec_cons] at h ⊢
      rw [List.cons_append]
      cases hb : step b s with
      | ok s₁ =>
          rw [apply_ok hb] at h ⊢
          simp only [history, hb]
          exact List.mem_cons_of_mem _ (ih h)
      | error e =>
          rw [apply_error hb] at h ⊢
          simp only [history, hb]
          exact ih h

/-- The states that a run goes through are its first and those after its steps. -/
theorem exec_prefix_iff {P : σ → Prop} {s : σ} {as : List α} :
    (∀ taken, taken <+: as → P (exec step s taken)) ↔
      P s ∧ ∀ t ∈ history step s as, P t.post := by
  induction as generalizing s with
  | nil => simp [history, exec]
  | cons a rest ih =>
      have hsplit : (∀ taken, taken <+: a :: rest → P (exec step s taken)) ↔
          P s ∧ ∀ taken, taken <+: rest → P (exec step (apply step s a) taken) := by
        constructor
        · intro h
          refine ⟨h [] List.nil_prefix, fun taken htaken => ?_⟩
          exact h (a :: taken) (List.cons_prefix_cons.mpr ⟨rfl, htaken⟩)
        · rintro ⟨hs, h⟩ taken htaken
          cases taken with
          | nil => exact hs
          | cons b taken =>
              obtain ⟨hfirst, hrest⟩ := List.cons_prefix_cons.mp htaken
              rw [hfirst]
              exact h taken hrest
      rw [hsplit, ih]
      cases h : step a s with
      | ok s' =>
          simp only [history, h, apply_ok h, List.forall_mem_cons]
      | error e =>
          simp only [history, h, apply_error h]
          exact ⟨fun hboth => hboth.2, fun hboth => ⟨hboth.1, hboth⟩⟩

/-- A quantity that every step of the run raises by `f` of that step is, after the
run, its starting value plus the sum of `f` over the history.  The invariant is
there for quantities that only move this way from good states, and the steps are
those of the history for facts that hold of this run and not of every run. -/
theorem exec_sum {M : Type} [AddCommMonoid M] {P : σ → Prop} {m : σ → M}
    {f : Transition σ α → M} {s : σ} {as : List α}
    (hstep : ∀ t ∈ history step s as, P t.pre → P t.post ∧ m t.post = m t.pre + f t)
    (hs : P s) :
    P (exec step s as) ∧ m (exec step s as) = m s + ((history step s as).map f).sum := by
  induction as generalizing s with
  | nil => simp [exec, history, hs]
  | cons a rest ih =>
      rw [exec_cons]
      cases h : step a s with
      | ok s' =>
          simp only [history, h, List.mem_cons, forall_eq_or_imp] at hstep
          have hn := hstep.1 hs
          have hrest := ih hstep.2 hn.1
          refine ⟨by rw [apply_ok h]; exact hrest.1, ?_⟩
          rw [apply_ok h, hrest.2, hn.2]
          simp [history, h, add_assoc]
      | error e =>
          simp only [history, h] at hstep
          rw [apply_error h]
          simpa [history, h] using ih hstep hs

/-- A relation to a running total that every step keeps, when the total is raised by
`f` of that step, holds after the run of the total over its history. -/
theorem exec_total {M : Type} [AddCommMonoid M] {R : σ → M → Prop} {f : Transition σ α → M}
    (hstep : ∀ a s s' g, R s g → step a s = .ok s' → R s' (g + f ⟨s, a, s'⟩)) {s : σ} {g : M}
    (hs : R s g) (as : List α) : R (exec step s as) (g + ((history step s as).map f).sum) := by
  induction as generalizing s g with
  | nil => simpa [exec, history] using hs
  | cons a rest ih =>
      rw [exec_cons]
      cases h : step a s with
      | ok s' =>
          have hrest := ih (hstep a s s' g hs h)
          rw [apply_ok h]
          simpa only [history, h, List.map_cons, List.sum_cons, add_assoc] using hrest
      | error e =>
          rw [apply_error h]
          simpa only [history, h] using ih hs

/-- A property that every step of this run keeps holds before each of them. -/
theorem history_pre {P : σ → Prop} {s : σ} {as : List α}
    (hstep : ∀ t ∈ history step s as, P t.pre → P t.post) (hs : P s) :
    ∀ t ∈ history step s as, P t.pre := by
  induction as generalizing s with
  | nil => simp [history]
  | cons a rest ih =>
      cases h : step a s with
      | ok s' =>
          simp only [history, h, List.mem_cons, forall_eq_or_imp] at hstep ⊢
          exact ⟨hs, ih hstep.2 (hstep.1 hs)⟩
      | error e =>
          simp only [history, h] at hstep ⊢
          exact ih hstep hs

/-- A property that every step of this run keeps holds after it. -/
theorem exec_kept {P : σ → Prop} {s : σ} {as : List α}
    (hstep : ∀ t ∈ history step s as, P t.pre → P t.post) (hs : P s) : P (exec step s as) :=
  (exec_sum (m := fun _ => 0) (f := fun _ => 0) (fun t ht hP => ⟨hstep t ht hP, rfl⟩) hs).1

/-- Where every accepted step is no step or one step of another machine on the part `f`
of the state, that part of every state reached is a state the other machine reaches, by
steps that have what each of them has. -/
theorem exec_simulated {τ β ε' : Type} {step' : β → τ → Except ε' τ} {f : σ → τ} {P : σ → Prop}
    {Q : Transition τ β → Prop}
    (hstep : ∀ a s s', P s → step a s = .ok s' →
      P s' ∧ (f s' = f s ∨ ∃ b, step' b (f s) = .ok (f s') ∧ Q ⟨f s, b, f s'⟩))
    {s : σ} (hs : P s) (as : List α) :
    ∃ bs, exec step' (f s) bs = f (exec step s as) ∧ ∀ t ∈ history step' (f s) bs, Q t := by
  induction as generalizing s with
  | nil => exact ⟨[], rfl, fun t ht => absurd ht List.not_mem_nil⟩
  | cons a rest ih =>
      rw [exec_cons]
      cases h : step a s with
      | error e =>
          rw [apply_error h]
          exact ih hs
      | ok s' =>
          rw [apply_ok h]
          obtain ⟨hs', hstays | ⟨b, hb, hq⟩⟩ := hstep a s s' hs h
          · rw [← hstays]
            exact ih hs'
          · obtain ⟨bs, hbs, hall⟩ := ih hs'
            refine ⟨b :: bs, by rw [exec_cons, apply_ok hb]; exact hbs, ?_⟩
            simp only [history, hb, List.mem_cons, forall_eq_or_imp]
            exact ⟨hq, hall⟩

/-- A second machine that follows every accepted step of a run is, after the run, in
the relation to the first that each step keeps. -/
theorem exec_follows {τ : Type} {R : σ → τ → Prop} {f : τ → α → τ}
    (hstep : ∀ a s s' g, R s g → step a s = .ok s' → R s' (f g a)) {s : σ} {g : τ}
    (hs : R s g) (as : List α) :
    R (exec step s as) ((history step s as).foldl (fun g t => f g t.action) g) := by
  induction as generalizing s g with
  | nil => exact hs
  | cons a rest ih =>
      rw [exec_cons]
      cases h : step a s with
      | ok s' =>
          simp only [history, h, List.foldl_cons]
          rw [apply_ok h]
          exact ih (hstep a s s' g hs h)
      | error e =>
          simp only [history, h]
          rw [apply_error h]
          exact ih hs

/-- A property that no step loses holds at the end of a run once some step of the
run brought it about. -/
theorem exec_since {P : σ → Prop} (hstep : ∀ a s s', P s → step a s = .ok s' → P s') {s : σ}
    {as : List α} {t : Transition σ α} (ht : t ∈ history step s as) (hP : P t.post) :
    P (exec step s as) := by
  induction as generalizing s with
  | nil => simp [history] at ht
  | cons a rest ih =>
      rw [exec_cons]
      cases h : step a s with
      | ok s' =>
          simp only [history, h, List.mem_cons] at ht
          rw [apply_ok h]
          rcases ht with rfl | ht
          · exact exec_invariant hstep hP rest
          · exact ih ht
      | error e =>
          simp only [history, h] at ht
          rw [apply_error h]
          exact ih ht

/-- A counter that no step lowers orders any two steps of a run. -/
theorem history_pairwise_le {m : σ → Nat}
    (hstep : ∀ a s s', step a s = .ok s' → m s ≤ m s') (s : σ) (as : List α) :
    (history step s as).Pairwise (fun t u => m t.post ≤ m u.pre) := by
  induction as generalizing s with
  | nil => exact List.Pairwise.nil
  | cons a rest ih =>
      cases h : step a s with
      | ok s' =>
          simp only [history, h]
          refine List.pairwise_cons.mpr ⟨?_, ih s'⟩
          exact history_pre (P := fun u => m s' ≤ m u)
            (fun t ht hle => Nat.le_trans hle (hstep _ _ _ (history_step ht))) (Nat.le_refl _)
      | error e =>
          simp only [history, h]
          exact ih s

/-- Spending that is checked against a fixed limit together with what was used
before stays, in sum, under that limit, whoever else uses it up meanwhile. -/
theorem history_budget (used limit : σ → Nat) (spend : Transition σ α → Nat) {s : σ}
    {as : List α}
    (hstep : ∀ t ∈ history step s as, limit t.post = limit t.pre ∧
      used t.pre + spend t ≤ used t.post ∧
      (spend t = 0 ∨ used t.pre + spend t ≤ limit t.pre)) :
    ((history step s as).map spend).sum = 0 ∨
      used s + ((history step s as).map spend).sum ≤ limit s := by
  induction as generalizing s with
  | nil => exact Or.inl rfl
  | cons a rest ih =>
      cases h : step a s with
      | ok s' =>
          simp only [history, h, List.mem_cons, forall_eq_or_imp] at hstep
          obtain ⟨⟨hlimit, hused, hspend⟩, hlater⟩ := hstep
          have hrest := ih hlater
          simp only [history, h, List.map_cons, List.sum_cons]
          omega
      | error e =>
          simp only [history, h] at hstep ⊢
          exact ih hstep

/-! A limit that belongs to an epoch, such as one permission of several that
follow each other.  Epochs only go forward, and within one the limit stays and
the amount used counts all the spending. -/

section Epoch

variable (epoch used limit : σ → Nat) (spend : Transition σ α → Nat)
  (hepoch : ∀ a s s', step a s = .ok s' → epoch s ≤ epoch s')
  (hstep : ∀ a s s', step a s = .ok s' → epoch s' = epoch s →
    limit s' = limit s ∧ used s + spend ⟨s, a, s'⟩ ≤ used s')
  (hspend : ∀ a s s', step a s = .ok s' →
    spend ⟨s, a, s'⟩ = 0 ∨ used s + spend ⟨s, a, s'⟩ ≤ limit s)

include hepoch hstep

theorem history_epoch_later (s : σ) (as : List α) : ∀ t ∈ history step s as,
    epoch s ≤ epoch t.pre ∧ (epoch t.pre = epoch s → limit t.pre = limit s) := by
  refine history_pre (P := fun w => epoch s ≤ epoch w ∧ (epoch w = epoch s → limit w = limit s))
    (fun t ht hP => ?_) ⟨Nat.le_refl _, fun _ => rfl⟩
  have hle := hepoch _ _ _ (history_step ht)
  refine ⟨Nat.le_trans hP.1 hle, fun he => ?_⟩
  have hsame : epoch t.post = epoch t.pre := by omega
  rw [(hstep _ _ _ (history_step ht) hsame).1]
  exact hP.2 (hsame.symm.trans he)

include hspend

/-- The epoch a run starts in: its steps are those before the first change. -/
theorem history_epoch_first (s : σ) (as : List α) :
    (((history step s as).filter (fun t => epoch t.pre = epoch s)).map spend).sum = 0 ∨
      used s + (((history step s as).filter (fun t => epoch t.pre = epoch s)).map spend).sum ≤
        limit s := by
  induction as generalizing s with
  | nil => exact Or.inl rfl
  | cons a rest ih =>
      cases h : step a s with
      | error e => simpa only [history, h] using ih s
      | ok s' =>
          have hcheck := hspend a s s' h
          simp only [history, h]
          rw [List.filter_cons_of_pos (by simp), List.map_cons, List.sum_cons]
          by_cases hsame : epoch s' = epoch s
          · have hrest := ih s'
            rw [hsame] at hrest
            obtain ⟨hlimit, hused⟩ := hstep a s s' h hsame
            omega
          · have hnone : (history step s' rest).filter (fun t => epoch t.pre = epoch s) = [] := by
              rw [List.filter_eq_nil_iff]
              intro t ht
              have hle := (history_epoch_later epoch used limit spend hepoch hstep s' rest t ht).1
              have hmove := hepoch a s s' h
              simp only [decide_eq_true_eq]
              omega
            rw [hnone]
            simpa using hcheck

/-- All the spending of one epoch stays under the limit its steps find, wherever in
the run the epoch lies. -/
theorem history_epoch_budget (s : σ) (as : List α) : ∀ u ∈ history step s as,
    (((history step s as).filter (fun t => epoch t.pre = epoch u.pre)).map spend).sum ≤
      limit u.pre := by
  induction as generalizing s with
  | nil => simp [history]
  | cons a rest ih =>
      cases h : step a s with
      | error e => simpa only [history, h] using ih s
      | ok s' =>
          intro u hu
          by_cases hin : epoch u.pre = epoch s
          · rw [hin, (history_epoch_later epoch used limit spend hepoch hstep s (a :: rest) u hu).2 hin]
            have hsum := history_epoch_first epoch used limit spend hepoch hstep hspend s (a :: rest)
            omega
          · simp only [history, h, List.mem_cons] at hu ⊢
            rcases hu with rfl | hu
            · exact absurd rfl hin
            · rw [List.filter_cons_of_neg (by simpa using Ne.symm hin)]
              exact ih s' u hu

end Epoch

/-- Actions that carry a key, of which an accepted one finds its key unused and
leaves it used, carry pairwise different keys: no key is accepted twice. -/
theorem history_keys_nodup {κ : Type} (key : α → Option κ) (used : σ → κ → Prop)
    (hkeep : ∀ a s s' k, step a s = .ok s' → used s k → used s' k)
    (hfresh : ∀ a s s' k, step a s = .ok s' → key a = some k → ¬ used s k ∧ used s' k)
    (s : σ) (as : List α) :
    ((history step s as).filterMap (fun t => key t.action)).Nodup ∧
      ∀ k ∈ (history step s as).filterMap (fun t => key t.action), ¬ used s k := by
  induction as generalizing s with
  | nil => simp [history]
  | cons a rest ih =>
      cases h : step a s with
      | error e => simpa only [history, h] using ih s
      | ok s' =>
          obtain ⟨hnodup, hunused⟩ := ih s'
          have hlater : ∀ k ∈ (history step s' rest).filterMap (fun t => key t.action),
              ¬ used s k := fun k hk hu => hunused k hk (hkeep a s s' k h hu)
          simp only [history, h]
          cases hk : key a with
          | none =>
              rw [List.filterMap_cons_none (by exact hk)]
              exact ⟨hnodup, hlater⟩
          | some k =>
              obtain ⟨hnot, hused⟩ := hfresh a s s' k h hk
              rw [List.filterMap_cons_some (by exact hk)]
              refine ⟨List.nodup_cons.mpr ⟨fun hmem => hunused k hmem hused, hnodup⟩, ?_⟩
              intro k' hk'
              rcases List.mem_cons.mp hk' with rfl | hk'
              · exact hnot
              · exact hlater k' hk'

end Run

end Machine
