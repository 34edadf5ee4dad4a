/-
Programs that commit as they go.

A program reads and writes a durable state and may throw.  What it committed
before it throws stays, so a program is an `EStateM`, and there is no rollback
but the one a single write makes of itself.  `Triple` gives a program's
postcondition on return and another on a throw, and the `run_` lemmas evaluate a
program whose steps are known to succeed.
-/
import Mathlib.Init

namespace Commit

variable {σ ε α β : Type}

/-- The answer of something outside the program. -/
def await (x : Except ε α) : EStateM ε σ α := fun s =>
  match x with
  | .ok a => .ok a s
  | .error e => .error e s

/-- A write that is one transaction: it happens whole, or it throws. -/
def write (succeeds : Bool) (failure : ε) (f : σ → σ) : EStateM ε σ Unit := fun s =>
  if succeeds then .ok () (f s) else .error failure s

/-- A transaction that computes its result and what it writes: it happens whole, or
it throws. -/
def atomic (f : σ → Except ε (α × σ)) : EStateM ε σ α := fun s =>
  match f s with
  | .ok (a, s') => .ok a s'
  | .error e => .error e s

/-- A transaction over the writes that a program makes on its way: a throw undoes
them. -/
def transaction (program : EStateM ε σ α) : EStateM ε σ α := fun s =>
  match program s with
  | .ok a s' => .ok a s'
  | .error e _ => .error e s

/-- A throw that is caught.  What the program did before it stays. -/
def recover (program : EStateM ε σ α) (handler : ε → EStateM ε σ α) : EStateM ε σ α := fun s =>
  match program s with
  | .ok a s' => .ok a s'
  | .error e s' => handler e s'

/-- The state a program leaves, whether it returned or threw. -/
def final : EStateM.Result ε σ α → σ
  | .ok _ s => s
  | .error _ s => s

/-! ## Conditions before and after -/

/-- From `P`, a program that returns leaves `Q` and one that throws leaves `E`. -/
def Triple (P : σ → Prop) (program : EStateM ε σ α) (Q : α → σ → Prop) (E : σ → Prop) : Prop :=
  ∀ s, P s → (∀ a s', program s = .ok a s' → Q a s') ∧ ∀ e s', program s = .error e s' → E s'

variable {P : σ → Prop} {Q : α → σ → Prop} {R : β → σ → Prop} {E : σ → Prop}

theorem run_bind {p : EStateM ε σ α} {f : α → EStateM ε σ β} {s s' : σ} {a : α}
    (h : p s = .ok a s') : (p >>= f) s = f a s' := by
  show EStateM.bind p f s = f a s'
  rw [EStateM.bind, h]

theorem run_bind_error {p : EStateM ε σ α} {f : α → EStateM ε σ β} {s s' : σ} {e : ε}
    (h : p s = .error e s') : (p >>= f) s = .error e s' := by
  show EStateM.bind p f s = .error e s'
  rw [EStateM.bind, h]

theorem Triple.bind {p : EStateM ε σ α} {f : α → EStateM ε σ β} (hp : Triple P p Q E)
    (hf : ∀ a, Triple (Q a) (f a) R E) : Triple P (p >>= f) R E := by
  intro s hs
  cases hrun : p s with
  | ok a s' =>
      rw [run_bind hrun]
      exact hf a s' ((hp s hs).1 a s' hrun)
  | error e s' =>
      rw [run_bind_error hrun]
      refine ⟨fun b t h => (by cases h), fun e' t h => ?_⟩
      cases h
      exact (hp s hs).2 e s' hrun

theorem Triple.pure {a : α} (h : ∀ s, P s → Q a s) :
    Triple P (Pure.pure a : EStateM ε σ α) Q E := by
  intro s hs
  refine ⟨fun b t hrun => ?_, fun e t hrun => by cases hrun⟩
  cases hrun
  exact h s hs

theorem Triple.get {R : σ → σ → Prop} (h : ∀ s, P s → R s s) :
    Triple P (MonadState.get : EStateM ε σ σ) R E := by
  intro s hs
  refine ⟨fun b t hrun => ?_, fun e t hrun => by cases hrun⟩
  cases hrun
  exact h s hs

theorem Triple.await {x : Except ε α} (h : ∀ a s, x = .ok a → P s → Q a s)
    (hthrow : ∀ s, P s → E s) : Triple P (await x : EStateM ε σ α) Q E := by
  intro s hs
  cases x with
  | ok a =>
      refine ⟨fun b t hrun => ?_, fun e t hrun => by cases hrun⟩
      cases hrun
      exact h a s rfl hs
  | error e =>
      refine ⟨fun b t hrun => (by cases hrun), fun e' t hrun => ?_⟩
      cases hrun
      exact hthrow s hs

theorem Triple.await_bind {x : Except ε α} {f : α → EStateM ε σ β}
    (h : ∀ a, x = .ok a → Triple P (f a) R E) (hthrow : ∀ s, P s → E s) :
    Triple P (Commit.await x >>= f) R E := by
  refine Triple.bind (Q := fun a s => x = .ok a ∧ P s) ?_ fun a s hs => h a hs.1 s hs.2
  exact Triple.await (fun a s ha hs => ⟨ha, hs⟩) hthrow

theorem Triple.get_bind {f : σ → EStateM ε σ β} (h : ∀ s, P s → Triple (· = s) (f s) R E) :
    Triple P (MonadState.get >>= f) R E := by
  refine Triple.bind (Q := fun a s => P s ∧ s = a) (Triple.get fun s hs => ⟨hs, rfl⟩) ?_
  rintro a s ⟨hs, rfl⟩
  exact h s hs s rfl

theorem Triple.modify {f : σ → σ} {R : PUnit → σ → Prop} (h : ∀ s, P s → R () (f s)) :
    Triple P (MonadStateOf.modifyGet fun s => (PUnit.unit, f s) : EStateM ε σ PUnit) R E := by
  intro s hs
  refine ⟨fun b t hrun => ?_, fun e t hrun => by cases hrun⟩
  cases hrun
  exact h s hs

theorem Triple.modify_bind {f : σ → σ} {g : PUnit → EStateM ε σ β}
    (h : ∀ s, P s → Triple (· = f s) (g ()) R E) :
    Triple P ((MonadStateOf.modifyGet fun s => (PUnit.unit, f s)) >>= g) R E := by
  refine Triple.bind (Q := fun _ t => ∃ s, P s ∧ t = f s)
    (Triple.modify fun s hs => ⟨s, hs, rfl⟩) ?_
  rintro _ t ⟨s, hs, ht⟩
  exact h s hs t ht

/-- It is enough to look at one state at a time. -/
theorem Triple.of_eq {p : EStateM ε σ α} (h : ∀ s, P s → Triple (· = s) p Q E) : Triple P p Q E :=
  fun s hs => h s hs s rfl

theorem Triple.mono {p : EStateM ε σ α} {P' : σ → Prop} {Q' : α → σ → Prop} {E' : σ → Prop}
    (h : Triple P p Q E) (hP : ∀ s, P' s → P s) (hQ : ∀ a s, Q a s → Q' a s)
    (hE : ∀ s, E s → E' s) : Triple P' p Q' E' := by
  intro s hs
  obtain ⟨hok, herror⟩ := h s (hP s hs)
  exact ⟨fun a s' hrun => hQ a s' (hok a s' hrun), fun e s' hrun => hE s' (herror e s' hrun)⟩

theorem Triple.recover {p : EStateM ε σ α} {handler : ε → EStateM ε σ α} {C : σ → Prop}
    (hp : Triple P p Q C) (hh : ∀ e, Triple C (handler e) Q E) :
    Triple P (recover p handler) Q E := by
  intro s hs
  obtain ⟨hok, herror⟩ := hp s hs
  unfold Commit.recover
  cases hrun : p s with
  | ok a s' =>
      refine ⟨fun b t h => ?_, fun e t h => by cases h⟩
      cases h
      exact hok a s' hrun
  | error e s' => exact hh e s' (herror e s' hrun)

theorem Triple.ite {c : Prop} [Decidable c] {p q : EStateM ε σ α} (hp : c → Triple P p Q E)
    (hq : ¬ c → Triple P q Q E) : Triple P (if c then p else q) Q E := by
  split
  · exact hp ‹c›
  · exact hq ‹¬ c›

/-- A program that changes nothing more. -/
theorem Triple.done {a : α} {s : σ} (h : Q a s) :
    Triple (· = s) (Pure.pure a : EStateM ε σ α) Q E := by
  refine Triple.pure fun t ht => ?_
  rw [ht]
  exact h

theorem Triple.forM {items : List β} {f : β → EStateM ε σ PUnit}
    (hf : ∀ b ∈ items, Triple P (f b) (fun _ => P) E) :
    Triple P (items.forM f) (fun _ => P) E := by
  induction items with
  | nil => exact Triple.pure fun _ hs => hs
  | cons b rest ih =>
      refine Triple.bind (hf b List.mem_cons_self) fun _ => ?_
      exact ih fun b' hb' => hf b' (List.mem_cons_of_mem b hb')

theorem Triple.foldlM {items : List β} {f : α → β → EStateM ε σ α} {I : α → σ → Prop}
    (hf : ∀ a, ∀ b ∈ items, Triple (I a) (f a b) I E) (a : α) :
    Triple (I a) (items.foldlM f a) I E := by
  induction items generalizing a with
  | nil => exact Triple.pure fun _ hs => hs
  | cons b rest ih =>
      rw [List.foldlM_cons]
      exact Triple.bind (hf a b List.mem_cons_self) fun a' => ih (fun a'' b' hb' =>
        hf a'' b' (List.mem_cons_of_mem b hb')) a'

theorem Triple.of_final {p : EStateM ε σ α} (h : ∀ s, P s → E (Commit.final (p s))) :
    Triple P p (fun _ => E) E := by
  intro s hs
  have hfinal := h s hs
  refine ⟨fun a s' hrun => ?_, fun e s' hrun => ?_⟩
  · rw [hrun] at hfinal
    exact hfinal
  · rw [hrun] at hfinal
    exact hfinal

theorem Triple.atomic {f : σ → Except ε (α × σ)} (h : ∀ s a s', P s → f s = .ok (a, s') → Q a s')
    (hthrow : ∀ s, P s → E s) : Triple P (atomic f) Q E := by
  intro s hs
  cases hf : f s with
  | ok result =>
      obtain ⟨a, s'⟩ := result
      have hrun : Commit.atomic f s = .ok a s' := by rw [Commit.atomic, hf]
      refine ⟨fun b t hb => ?_, fun e t he => ?_⟩
      · rw [hrun] at hb
        cases hb
        exact h s a s' hs hf
      · rw [hrun] at he
        cases he
  | error e =>
      have hrun : Commit.atomic f s = .error e s := by rw [Commit.atomic, hf]
      refine ⟨fun b t hb => ?_, fun e' t he => ?_⟩
      · rw [hrun] at hb
        cases hb
      · rw [hrun] at he
        cases he
        exact hthrow s hs

/-- A program that keeps a property when it returns and when it throws keeps it. -/
theorem Triple.final {p : EStateM ε σ α} (h : Triple P p (fun _ => E) E) {s : σ} (hs : P s) :
    E (final (p s)) := by
  obtain ⟨hok, herror⟩ := h s hs
  cases hrun : p s with
  | ok a s' => exact hok a s' hrun
  | error e s' => exact herror e s' hrun

theorem run_await {x : Except ε α} {a : α} (h : x = .ok a) (s : σ) :
    (await x : EStateM ε σ α) s = .ok a s := by
  subst h
  rfl

theorem run_atomic {f : σ → Except ε (α × σ)} {s s' : σ} {a : α} (h : f s = .ok (a, s')) :
    atomic f s = .ok a s' := by
  rw [atomic, h]

/-! ## Programs that return -/

theorem bind_returns {p : EStateM ε σ α} {f : α → EStateM ε σ β} {s s' : σ} {b : β} :
    (p >>= f) s = .ok b s' ↔ ∃ a t, p s = .ok a t ∧ f a t = .ok b s' := by
  constructor
  · intro h
    cases hp : p s with
    | ok a t =>
        rw [run_bind hp] at h
        exact ⟨a, t, rfl, h⟩
    | error e t =>
        rw [run_bind_error hp] at h
        cases h
  · rintro ⟨a, t, hp, hf⟩
    rw [run_bind hp]
    exact hf

theorem await_returns {x : Except ε α} {s s' : σ} {a : α} :
    (await x : EStateM ε σ α) s = .ok a s' ↔ x = .ok a ∧ s = s' := by
  cases x with
  | ok b =>
      constructor
      · intro h
        cases h
        exact ⟨rfl, rfl⟩
      · rintro ⟨h, rfl⟩
        cases h
        rfl
  | error e =>
      constructor
      · intro h
        cases h
      · rintro ⟨h, _⟩
        cases h

theorem get_returns {s s' a : σ} :
    (MonadState.get : EStateM ε σ σ) s = .ok a s' ↔ s = a ∧ s = s' := by
  constructor
  · intro h
    cases h
    exact ⟨rfl, rfl⟩
  · rintro ⟨rfl, rfl⟩
    rfl

theorem set_returns {s s' t : σ} {u : PUnit} :
    (MonadStateOf.set t : EStateM ε σ PUnit) s = .ok u s' ↔ t = s' := by
  constructor
  · intro h
    cases h
    rfl
  · rintro rfl
    rfl

theorem transaction_returns {p : EStateM ε σ α} {s s' : σ} {a : α} :
    transaction p s = .ok a s' ↔ p s = .ok a s' := by
  unfold transaction
  cases p s with
  | ok b t => exact Iff.rfl
  | error e t =>
      constructor <;> intro h <;> cases h

theorem bind_throws {p : EStateM ε σ α} {f : α → EStateM ε σ β} {s s' : σ} {e : ε}
    (h : (p >>= f) s = .error e s') :
    p s = .error e s' ∨ ∃ a t, p s = .ok a t ∧ f a t = .error e s' := by
  cases hp : p s with
  | ok a t =>
      rw [run_bind hp] at h
      exact .inr ⟨a, t, rfl, h⟩
  | error e' t =>
      rw [run_bind_error hp] at h
      cases h
      exact .inl rfl

theorem await_throws {x : Except ε α} {s s' : σ} {e : ε}
    (h : (await x : EStateM ε σ α) s = .error e s') : s' = s := by
  cases x with
  | ok a => cases h
  | error e' =>
      cases h
      rfl

/-- A transaction that throws leaves the state as it was. -/
theorem transaction_throws {p : EStateM ε σ α} {s s' : σ} {e : ε}
    (h : transaction p s = .error e s') : s' = s := by
  unfold transaction at h
  cases hp : p s with
  | ok a t =>
      rw [hp] at h
      cases h
  | error e' t =>
      rw [hp] at h
      cases h
      rfl

end Commit
