/-
Programs that wait for answers, and what they promise each other.

`Async` is a program over a shared state.  Between two waits it runs alone; while it
waits, other programs run.  `ask` is an answer that comes at once, from a clock or a
storage, and `await` one for which the program is put aside.

`wp` is the condition under which a program keeps to a guarantee `G`, when what others
do while it waits is within `R` and leaves the invariant `I`.  `Triple` states it for
a condition before and conditions after a return and after a throw, and the rules
follow the way a program is put together.  `Concurrent` runs any number of programs in
any order, and `Protocol` collects what has to be shown of them once: where the
guarantee of each is within what every other relies on, no run leaves the invariant.
-/
import Mathlib.Logic.Relation
import AlphaForge.Machine.Run

inductive Async (σ ρ : Type) (A : ρ → Type) (ε α : Type) : Type where
  | done (result : Except ε α)
  /-- One change of the state; the rest sees the state before it. -/
  | update (f : σ → σ) (next : σ → Async σ ρ A ε α)
  | ask (r : ρ) (next : A r → Async σ ρ A ε α)
  | await (r : ρ) (next : A r → Async σ ρ A ε α)

namespace Async

variable {σ ρ : Type} {A : ρ → Type} {ε α β : Type}

/-! ## Programs -/

def bind : Async σ ρ A ε α → (α → Async σ ρ A ε β) → Async σ ρ A ε β
  | .done (.ok a), k => k a
  | .done (.error e), _ => .done (.error e)
  | .update f next, k => .update f fun s => (next s).bind k
  | .ask r next, k => .ask r fun a => (next a).bind k
  | .await r next, k => .await r fun a => (next a).bind k

instance : Monad (Async σ ρ A ε) where
  pure a := .done (.ok a)
  bind := Async.bind

/-- A throw that is caught.  What was done before it stays. -/
def recover : Async σ ρ A ε α → (ε → Async σ ρ A ε α) → Async σ ρ A ε α
  | .done (.ok a), _ => .done (.ok a)
  | .done (.error e), handler => handler e
  | .update f next, handler => .update f fun s => (next s).recover handler
  | .ask r next, handler => .ask r fun a => (next a).recover handler
  | .await r next, handler => .await r fun a => (next a).recover handler

/-- `finally`: a change of the state at the end, whether the program returned or threw. -/
def finally_ : Async σ ρ A ε α → (σ → σ) → Async σ ρ A ε α
  | .done result, last => .update last fun _ => .done result
  | .update f next, last => .update f fun s => (next s).finally_ last
  | .ask r next, last => .ask r fun a => (next a).finally_ last
  | .await r next, last => .await r fun a => (next a).finally_ last

def throw (e : ε) : Async σ ρ A ε α := .done (.error e)

def read : Async σ ρ A ε σ := .update id fun s => .done (.ok s)

def modify (f : σ → σ) : Async σ ρ A ε Unit := .update f fun _ => .done (.ok ())

def request (r : ρ) : Async σ ρ A ε (A r) := .await r fun a => .done (.ok a)

def input (r : ρ) : Async σ ρ A ε (A r) := .ask r fun a => .done (.ok a)

def ofExcept (x : Except ε α) : Async σ ρ A ε α := .done x

/-! ## Runs up to the next wait -/

/-- The answers from outside, in the order they are asked for. -/
abbrev Answers (A : ρ → Type) : Type := Nat → (r : ρ) → A r

def run (answers : Answers A) : Async σ ρ A ε α → σ → Nat → σ × Async σ ρ A ε α
  | .done result, s, _ => (s, .done result)
  | .update f next, s, n => (next s).run answers (f s) n
  | .ask r next, s, n => (next (answers n r)).run answers s (n + 1)
  | .await r next, s, _ => (s, .await r next)

/-- The first answer is the one that was waited for. -/
def resume (answers : Answers A) : Async σ ρ A ε α → σ → σ × Async σ ρ A ε α
  | .await r next, s => (next (answers 0 r)).run answers s 1
  | x, s => x.run answers s 0

def isDone : Async σ ρ A ε α → Bool
  | .done _ => true
  | _ => false

/-- The program has ended or waits. -/
def Settled : Async σ ρ A ε α → Prop
  | .done _ => True
  | .await _ _ => True
  | _ => False

/-! ## Conditions -/

section Conditions

variable (I : σ → Prop) (R G : σ → σ → Prop)

def wp (Q : Except ε α → σ → Prop) : Async σ ρ A ε α → σ → Prop
  | .done result, s => Q result s
  | .update f next, s => G s (f s) ∧ (next s).wp Q (f s)
  | .ask _ next, s => ∀ a, (next a).wp Q s
  | .await _ next, s => ∀ s', R s s' → I s' → ∀ a, (next a).wp Q s'

/-- From `P`, a program that returns leaves `Q` and one that throws leaves `E`. -/
def Post (Q : α → σ → Prop) (E : σ → Prop) : Except ε α → σ → Prop
  | .ok a, s => Q a s
  | .error _, s => E s

def Triple (P : σ → Prop) (x : Async σ ρ A ε α) (Q : α → σ → Prop) (E : σ → Prop) : Prop :=
  ∀ s, P s → x.wp I R G (Post Q E) s

end Conditions

variable {I : σ → Prop} {R G : σ → σ → Prop} {P P' : σ → Prop} {Q Q' : α → σ → Prop}
  {E E' : σ → Prop}

theorem wp_mono {Q Q' : Except ε α → σ → Prop} (hQ : ∀ r s, Q r s → Q' r s)
    {x : Async σ ρ A ε α} {s : σ} (h : x.wp I R G Q s) : x.wp I R G Q' s := by
  induction x generalizing s with
  | done result => exact hQ result s h
  | update f next ih => exact ⟨h.1, ih s h.2⟩
  | ask r next ih => exact fun a => ih a (h a)
  | await r next ih => exact fun s' hR hI a => ih a (h s' hR hI a)

theorem wp_bind {Q : Except ε β → σ → Prop} {x : Async σ ρ A ε α} {k : α → Async σ ρ A ε β}
    {s : σ}
    (h : x.wp I R G (Post (fun a s => (k a).wp I R G Q s) (fun s => ∀ e, Q (.error e) s)) s) :
    (x >>= k).wp I R G Q s := by
  show (x.bind k).wp I R G Q s
  induction x generalizing s with
  | done result =>
      cases result with
      | ok a => exact h
      | error e => exact h e
  | update f next ih => exact ⟨h.1, ih s h.2⟩
  | ask r next ih => exact fun a => ih a (h a)
  | await r next ih => exact fun s' hR hI a => ih a (h s' hR hI a)

theorem wp_recover {Q : Except ε α → σ → Prop} {x : Async σ ρ A ε α} {handler : ε → Async σ ρ A ε α}
    {s : σ}
    (h : x.wp I R G (Post (fun a s => Q (.ok a) s) (fun s => ∀ e, (handler e).wp I R G Q s)) s) :
    (x.recover handler).wp I R G Q s := by
  induction x generalizing s with
  | done result =>
      cases result with
      | ok a => exact h
      | error e => exact h e
  | update f next ih => exact ⟨h.1, ih s h.2⟩
  | ask r next ih => exact fun a => ih a (h a)
  | await r next ih => exact fun s' hR hI a => ih a (h s' hR hI a)

theorem wp_finally {Q : Except ε α → σ → Prop} {x : Async σ ρ A ε α} {last : σ → σ} {s : σ}
    (h : x.wp I R G (fun r s => G s (last s) ∧ Q r (last s)) s) :
    (x.finally_ last).wp I R G Q s := by
  induction x generalizing s with
  | done result => exact h
  | update f next ih => exact ⟨h.1, ih s h.2⟩
  | ask r next ih => exact fun a => ih a (h a)
  | await r next ih => exact fun s' hR hI a => ih a (h s' hR hI a)

/-- A guarantee that keeps the invariant lets a program end in it. -/
theorem wp_invariant {Q : Except ε α → σ → Prop} (hkept : ∀ s s', I s → G s s' → I s')
    {x : Async σ ρ A ε α} {s : σ} (hI : I s) (h : x.wp I R G Q s) :
    x.wp I R G (fun r s => Q r s ∧ I s) s := by
  induction x generalizing s with
  | done result => exact ⟨h, hI⟩
  | update f next ih => exact ⟨h.1, ih s (hkept _ _ hI h.1) h.2⟩
  | ask r next ih => exact fun a => ih a hI (h a)
  | await r next ih => exact fun s' hR hI' a => ih a hI' (h s' hR hI' a)

namespace Triple

theorem weaken {x : Async σ ρ A ε α} (h : Triple I R G P x Q E) (hP : ∀ s, P' s → P s)
    (hQ : ∀ a s, Q a s → Q' a s) (hE : ∀ s, E s → E' s) : Triple I R G P' x Q' E' := by
  intro s hs
  refine wp_mono (fun r s' hr => ?_) (h s (hP s hs))
  cases r with
  | ok a => exact hQ a s' hr
  | error e => exact hE s' hr

theorem pre {x : Async σ ρ A ε α} (h : Triple I R G P x Q E) (hP : ∀ s, P' s → P s) :
    Triple I R G P' x Q E :=
  h.weaken hP (fun _ _ hq => hq) (fun _ he => he)

theorem post {x : Async σ ρ A ε α} (h : Triple I R G P x Q E) (hQ : ∀ a s, Q a s → Q' a s) :
    Triple I R G P x Q' E :=
  h.weaken (fun _ hp => hp) hQ (fun _ he => he)

theorem bind {S : β → σ → Prop} {x : Async σ ρ A ε α} {k : α → Async σ ρ A ε β}
    (hx : Triple I R G P x Q E) (hk : ∀ a, Triple I R G (Q a) (k a) S E) :
    Triple I R G P (x >>= k) S E := by
  intro s hs
  refine wp_bind (wp_mono (fun r s' hr => ?_) (hx s hs))
  cases r with
  | ok a => exact hk a s' hr
  | error e => exact fun _ => hr

theorem pure {a : α} (h : ∀ s, P s → Q a s) :
    Triple I R G P (Pure.pure a : Async σ ρ A ε α) Q E := h

theorem throw {e : ε} (h : ∀ s, P s → E s) : Triple I R G P (throw e : Async σ ρ A ε α) Q E := h

theorem ofExcept {x : Except ε α} (h : ∀ a s, x = .ok a → P s → Q a s) (hthrow : ∀ s, P s → E s) :
    Triple I R G P (ofExcept x : Async σ ρ A ε α) Q E := by
  intro s hs
  cases hx : x with
  | ok a => exact h a s hx hs
  | error e => exact hthrow s hs

theorem modify {f : σ → σ} {Q : Unit → σ → Prop} (h : ∀ s, P s → G s (f s) ∧ Q () (f s)) :
    Triple I R G P (modify f : Async σ ρ A ε Unit) Q E := h

theorem input {r : ρ} {Q : A r → σ → Prop} (h : ∀ a s, P s → Q a s) :
    Triple I R G P (input r : Async σ ρ A ε (A r)) Q E :=
  fun s hs a => h a s hs

/-- What is known before a wait has to survive what others do meanwhile. -/
theorem request {r : ρ} {Q : A r → σ → Prop}
    (h : ∀ a s s', P s → R s s' → I s' → Q a s') :
    Triple I R G P (request r : Async σ ρ A ε (A r)) Q E :=
  fun s hs s' hR hI a => h a s s' hs hR hI

/-- The state that is read is the one the rest starts from. -/
theorem read_bind {k : σ → Async σ ρ A ε α} (hG : ∀ s, P s → G s s)
    (h : ∀ s, P s → Triple I R G (· = s) (k s) Q E) :
    Triple I R G P (read >>= k) Q E := by
  intro s hs
  exact ⟨hG s hs, h s hs s rfl⟩

theorem recover {x : Async σ ρ A ε α} {handler : ε → Async σ ρ A ε α}
    (hx : Triple I R G P x Q E') (hhandler : ∀ e, Triple I R G E' (handler e) Q E) :
    Triple I R G P (x.recover handler) Q E := by
  intro s hs
  refine wp_recover (wp_mono (fun r s' hr => ?_) (hx s hs))
  cases r with
  | ok a => exact hr
  | error e => exact fun e' => hhandler e' s' hr

theorem finally_ {x : Async σ ρ A ε α} {last : σ → σ}
    (hx : Triple I R G P x (fun a s => G s (last s) ∧ Q a (last s))
      (fun s => G s (last s) ∧ E (last s))) :
    Triple I R G P (x.finally_ last) Q E := by
  intro s hs
  refine wp_finally (wp_mono (fun r s' hr => ?_) (hx s hs))
  cases r <;> exact hr

theorem invariant {x : Async σ ρ A ε α} (hkept : ∀ s s', I s → G s s' → I s')
    (h : Triple I R G P x Q E) :
    Triple I R G (fun s => P s ∧ I s) x (fun a s => Q a s ∧ I s) (fun s => E s ∧ I s) := by
  intro s hs
  refine wp_mono (fun r s' hr => ?_) (wp_invariant hkept hs.2 (h s hs.1))
  cases r <;> exact hr

theorem ite {p : Prop} [Decidable p] {x y : Async σ ρ A ε α}
    (hx : p → Triple I R G P x Q E) (hy : ¬ p → Triple I R G P y Q E) :
    Triple I R G P (if p then x else y) Q E := by
  by_cases h : p
  · rw [if_pos h]
    exact hx h
  · rw [if_neg h]
    exact hy h

end Triple

/-! ## Runs of one program -/

theorem wp_run {Q : Except ε α → σ → Prop} (answers : Answers A) {x : Async σ ρ A ε α} {s : σ}
    (h : x.wp I R G Q s) (n : Nat) :
    Relation.ReflTransGen G s (x.run answers s n).1 ∧
      (x.run answers s n).2.wp I R G Q (x.run answers s n).1 ∧ Settled (x.run answers s n).2 := by
  induction x generalizing s n with
  | done result => exact ⟨.refl, h, trivial⟩
  | update f next ih =>
      obtain ⟨hsteps, hrest⟩ := ih s h.2 n
      exact ⟨.head h.1 hsteps, hrest⟩
  | ask r next ih => exact ih _ (h _) (n + 1)
  | await r next ih => exact ⟨.refl, h, trivial⟩

/-- What a program is owed while it waits outlasts what others do. -/
theorem wp_stable {Q : Except ε α → σ → Prop} {x : Async σ ρ A ε α} {s s' : σ}
    (htrans : ∀ a b c, R a b → R b c → R a c) (hsettled : Settled x) (hdone : x.isDone = false)
    (h : x.wp I R G Q s) (hR : R s s') : x.wp I R G Q s' := by
  cases x with
  | done result => cases hdone
  | update f next => exact hsettled.elim
  | ask r next => exact hsettled.elim
  | await r next => exact fun s'' hR' => h s'' (htrans _ _ _ hR hR')

theorem wp_resume {Q : Except ε α → σ → Prop} (answers : Answers A) {x : Async σ ρ A ε α} {s : σ}
    (hrefl : R s s) (hI : I s) (h : x.wp I R G Q s) :
    Relation.ReflTransGen G s (x.resume answers s).1 ∧
      (x.resume answers s).2.wp I R G Q (x.resume answers s).1 ∧
      Settled (x.resume answers s).2 := by
  cases x with
  | done result => exact wp_run answers h 0
  | update f next => exact wp_run answers h 0
  | ask r next => exact wp_run answers h 0
  | await r next => exact wp_run answers (h s hrefl hI (answers 0 r)) 1

/-- A call that has begun and waits. -/
structure Thread (ι σ ρ : Type) (A : ρ → Type) (ε : Type) where
  id : Nat
  call : ι
  program : Async σ ρ A ε Unit

end Async

/-! ## Programs that run beside each other -/

structure Concurrent (ι σ ρ : Type) (A : ρ → Type) (ε : Type) where
  state : σ
  threads : List (Async.Thread ι σ ρ A ε)
  begun : Nat

namespace Concurrent

open Async Machine

variable {ι σ ρ : Type} {A : ρ → Type} {ε : Type}

inductive Event (ι ρ : Type) (A : ρ → Type) where
  | begin (call : ι) (answers : Answers A)
  /-- The thread at this place gets its answer. -/
  | resume (place : Nat) (answers : Answers A)
  /-- Every thread is gone. -/
  | reset

/-- The threads after one of them has run. -/
def put (threads : List (Thread ι σ ρ A ε)) (place : Nat) (t : Thread ι σ ρ A ε) :
    List (Thread ι σ ρ A ε) :=
  if t.program.isDone then threads.eraseIdx place else threads.set place t

/-- No two places have a thread of one number. -/
theorem place_of_id {threads : List (Thread ι σ ρ A ε)} (hdistinct : (threads.map Thread.id).Nodup)
    {i j : Nat} {t u : Thread ι σ ρ A ε} (hi : threads[i]? = some t) (hj : threads[j]? = some u)
    (hid : t.id = u.id) : i = j := by
  obtain ⟨hlt, _⟩ := List.getElem?_eq_some_iff.mp hi
  have hlt' : i < (threads.map Thread.id).length := by rwa [List.length_map]
  refine (List.getElem?_inj hlt' hdistinct).mp ?_
  rw [List.getElem?_map, List.getElem?_map, hi, hj, Option.map_some, Option.map_some, hid]

theorem mem_put {threads : List (Thread ι σ ρ A ε)} (hdistinct : (threads.map Thread.id).Nodup)
    {place : Nat} {t u w : Thread ι σ ρ A ε} (hplace : threads[place]? = some u)
    (hw : w ∈ put threads place t) :
    (w = t ∧ t.program.isDone = false) ∨ (w ∈ threads ∧ w.id ≠ u.id) := by
  have hother : ∀ i, i ≠ place → threads[i]? = some w → w ∈ threads ∧ w.id ≠ u.id :=
    fun i hne hi => ⟨List.mem_of_getElem? hi, fun hid => hne (place_of_id hdistinct hi hplace hid)⟩
  unfold put at hw
  split at hw
  · obtain ⟨i, hne, hi⟩ := List.mem_eraseIdx_iff_getElem?.mp hw
    exact Or.inr (hother i hne hi)
  · next hdone =>
    obtain ⟨i, hi⟩ := List.mem_iff_getElem?.mp hw
    rw [List.getElem?_set] at hi
    split at hi
    · split at hi
      · exact Or.inl ⟨(Option.some.inj hi).symm, Bool.eq_false_iff.mpr hdone⟩
      · cases hi
    · next hne => exact Or.inr (hother i (Ne.symm hne) hi)

theorem put_distinct {threads : List (Thread ι σ ρ A ε)} (hdistinct : (threads.map Thread.id).Nodup)
    {place : Nat} {t u : Thread ι σ ρ A ε} (hplace : threads[place]? = some u) (hid : t.id = u.id) :
    ((put threads place t).map Thread.id).Nodup := by
  unfold put
  split
  · exact hdistinct.sublist ((List.eraseIdx_sublist threads place).map _)
  · have hset : (threads.set place t).map Thread.id = threads.map Thread.id := by
      obtain ⟨hlt, _⟩ := List.getElem?_eq_some_iff.mp hplace
      refine List.ext_getElem? fun i => ?_
      rw [List.getElem?_map, List.getElem?_map]
      by_cases heq : place = i
      · rw [← heq, List.getElem?_set_self hlt, hplace, Option.map_some, Option.map_some, hid]
      · rw [List.getElem?_set_ne heq]
    rw [hset]
    exact hdistinct

section Step

variable (body : Nat → ι → Async σ ρ A ε Unit) (reset : σ → σ)

def step : Event ι ρ A → Concurrent ι σ ρ A ε → Except String (Concurrent ι σ ρ A ε)
  | .begin call answers, S =>
      let (state, program) := (body S.begun call).run answers S.state 0
      .ok {
        state
        threads := if program.isDone then S.threads else S.threads ++ [⟨S.begun, call, program⟩]
        begun := S.begun + 1 }
  | .resume place answers, S =>
      match S.threads[place]? with
      | none => .error "NO_SUCH_THREAD"
      | some t =>
          let (state, program) := t.program.resume answers S.state
          .ok ⟨state, put S.threads place { t with program }, S.begun⟩
  | .reset, S => .ok ⟨reset S.state, [], S.begun⟩

def start (s : σ) : Concurrent ι σ ρ A ε := ⟨s, [], 0⟩

end Step

/-- What is shown of the programs: `G` is what a thread may do, `R` what it relies on,
and `Fresh` what holds of the number of a thread that has not begun. -/
structure Protocol (body : Nat → ι → Async σ ρ A ε Unit) (reset : σ → σ) (I : σ → Prop)
    (Fresh : Nat → σ → Prop) (R : Nat → σ → σ → Prop) (G : Nat → ι → σ → σ → Prop) : Prop where
  refl : ∀ n s, R n s s
  trans : ∀ n a b c, R n a b → R n b c → R n a c
  kept : ∀ n call s s', I s → G n call s s' → I s'
  heard : ∀ n m call s s', n ≠ m → I s → G n call s s' → R m s s'
  fresh : ∀ n m call s s', n ≠ m → G n call s s' → Fresh m s → Fresh m s'
  begins : ∀ n call s, I s → Fresh n s →
    (body n call).wp I (R n) (G n call) (fun _ _ => True) s
  resetKept : ∀ s, I s → I (reset s)
  resetFresh : ∀ n s, Fresh n s → Fresh n (reset s)

variable {body : Nat → ι → Async σ ρ A ε Unit} {reset : σ → σ} {I : σ → Prop}
  {Fresh : Nat → σ → Prop} {R : Nat → σ → σ → Prop} {G : Nat → ι → σ → σ → Prop}

/-- A thread that waits, and is owed the rest of its program. -/
def Owed (I : σ → Prop) (R : Nat → σ → σ → Prop) (G : Nat → ι → σ → σ → Prop) (s : σ)
    (t : Thread ι σ ρ A ε) : Prop :=
  Settled t.program ∧ t.program.isDone = false ∧
    t.program.wp I (R t.id) (G t.id t.call) (fun _ _ => True) s

structure Sound (I : σ → Prop) (Fresh : Nat → σ → Prop) (R : Nat → σ → σ → Prop)
    (G : Nat → ι → σ → σ → Prop) (S : Concurrent ι σ ρ A ε) : Prop where
  state : I S.state
  fresh : ∀ n, S.begun ≤ n → Fresh n S.state
  owed : ∀ t ∈ S.threads, Owed I R G S.state t
  begun : ∀ t ∈ S.threads, t.id < S.begun
  distinct : (S.threads.map Thread.id).Nodup

/-- Steps that a thread may take, from states in the invariant. -/
def Moves (I : σ → Prop) (G : Nat → ι → σ → σ → Prop) (n : Nat) (call : ι) : σ → σ → Prop :=
  Relation.ReflTransGen fun s s' => I s ∧ G n call s s'

namespace Protocol

variable (h : Protocol body reset I Fresh R G) {n m : Nat} {call : ι} {s s' : σ}
  {S S' : Concurrent ι σ ρ A ε}

include h

theorem moves (hI : I s) (hsteps : Relation.ReflTransGen (G n call) s s') :
    Moves I G n call s s' ∧ I s' := by
  induction hsteps with
  | refl => exact ⟨.refl, hI⟩
  | tail _ hstep ih => exact ⟨ih.1.tail ⟨ih.2, hstep⟩, h.kept n call _ _ ih.2 hstep⟩

theorem moves_heard (hne : n ≠ m) (hmoves : Moves I G n call s s') : R m s s' := by
  induction hmoves with
  | refl => exact h.refl m s
  | tail _ hstep ih => exact h.trans m _ _ _ ih (h.heard n m call _ _ hne hstep.1 hstep.2)

theorem moves_fresh (hne : n ≠ m) (hmoves : Moves I G n call s s') (hfresh : Fresh m s) :
    Fresh m s' := by
  induction hmoves with
  | refl => exact hfresh
  | tail _ hstep ih => exact h.fresh n m call _ _ hne hstep.2 ih

theorem owed_after {t : Thread ι σ ρ A ε} (hne : n ≠ t.id) (hmoves : Moves I G n call s s')
    (howed : Owed I R G s t) : Owed I R G s' t :=
  ⟨howed.1, howed.2.1, wp_stable (h.trans t.id) howed.1 howed.2.1 howed.2.2
    (h.moves_heard hne hmoves)⟩

/-- A new thread runs up to its first wait. -/
theorem begin_sound (hS : Sound I Fresh R G S) (answers : Answers A)
    (hstep : step body reset (.begin call answers) S = .ok S') :
    Sound I Fresh R G S' ∧ Moves I G S.begun call S.state S'.state := by
  obtain ⟨hsteps, hrest, hsettled⟩ :=
    wp_run answers (h.begins S.begun call S.state hS.state (hS.fresh _ (Nat.le_refl _))) 0
  obtain ⟨hmoves, hI⟩ := h.moves hS.state hsteps
  obtain rfl := Except.ok.inj hstep
  have hold : ∀ t ∈ S.threads,
      Owed I R G ((body S.begun call).run answers S.state 0).1 t := fun t ht =>
    h.owed_after (Nat.ne_of_gt (hS.begun t ht)) hmoves (hS.owed t ht)
  refine ⟨⟨hI, fun n hn => ?_, ?_, ?_, ?_⟩, hmoves⟩
  · exact h.moves_fresh (Nat.ne_of_lt hn) hmoves (hS.fresh n (Nat.le_of_succ_le hn))
  · dsimp only
    split
    · exact hold
    · next hdone =>
      intro t ht
      rcases List.mem_append.mp ht with ht | ht
      · exact hold t ht
      · rw [List.mem_singleton.mp ht]
        exact ⟨hsettled, Bool.eq_false_iff.mpr hdone, hrest⟩
  · dsimp only
    split
    · exact fun t ht => Nat.lt_succ_of_lt (hS.begun t ht)
    · intro t ht
      rcases List.mem_append.mp ht with ht | ht
      · exact Nat.lt_succ_of_lt (hS.begun t ht)
      · rw [List.mem_singleton.mp ht]
        exact Nat.lt_succ_self _
  · dsimp only
    split
    · exact hS.distinct
    · rw [List.map_append, List.nodup_append]
      refine ⟨hS.distinct, List.pairwise_singleton _ _, ?_⟩
      intro a ha b hb
      obtain ⟨t, ht, rfl⟩ := List.mem_map.mp ha
      rw [List.mem_singleton.mp hb]
      exact Nat.ne_of_lt (hS.begun t ht)

/-- A thread that is answered runs up to its next wait. -/
theorem resume_sound (hS : Sound I Fresh R G S) {place : Nat} (answers : Answers A)
    (hstep : step body reset (.resume place answers) S = .ok S') :
    Sound I Fresh R G S' ∧ ∃ t, S.threads[place]? = some t ∧
      Moves I G t.id t.call S.state S'.state := by
  simp only [step] at hstep
  split at hstep
  · cases hstep
  · next t hplace =>
    obtain rfl := Except.ok.inj hstep
    have ht : t ∈ S.threads := List.mem_of_getElem? hplace
    obtain ⟨hlt, hget⟩ := List.getElem?_eq_some_iff.mp hplace
    obtain ⟨hsettled, hdone, hwp⟩ := hS.owed t ht
    obtain ⟨hsteps, hrest, hsettled'⟩ := wp_resume answers (h.refl t.id S.state) hS.state hwp
    obtain ⟨hmoves, hI⟩ := h.moves hS.state hsteps
    refine ⟨⟨hI, fun n hn => ?_, ?_, ?_, ?_⟩, t, hplace, hmoves⟩
    · have hne : t.id ≠ n := Nat.ne_of_lt (Nat.lt_of_lt_of_le (hS.begun t ht) hn)
      exact h.moves_fresh hne hmoves (hS.fresh n hn)
    · -- the others have other numbers, so what they are owed outlasts this run
      intro w hw
      rcases mem_put hS.distinct hplace hw with ⟨rfl, hwaits⟩ | ⟨hw, hne⟩
      · exact ⟨hsettled', hwaits, hrest⟩
      · exact h.owed_after (Ne.symm hne) hmoves (hS.owed w hw)
    · intro w hw
      rcases mem_put hS.distinct hplace hw with ⟨rfl, _⟩ | ⟨hw, _⟩
      · exact hS.begun t ht
      · exact hS.begun w hw
    · exact put_distinct hS.distinct hplace rfl

theorem reset_sound (hS : Sound I Fresh R G S) (hstep : step body reset .reset S = .ok S') :
    Sound I Fresh R G S' ∧ S'.state = reset S.state := by
  obtain rfl := Except.ok.inj hstep
  exact ⟨⟨h.resetKept S.state hS.state, fun n hn => h.resetFresh n S.state (hS.fresh n hn),
    fun t ht => absurd ht List.not_mem_nil, fun t ht => absurd ht List.not_mem_nil,
    List.nodup_nil⟩, rfl⟩

theorem step_sound (hS : Sound I Fresh R G S) {event : Event ι ρ A}
    (hstep : step body reset event S = .ok S') : Sound I Fresh R G S' := by
  cases event with
  | begin call answers => exact (h.begin_sound hS answers hstep).1
  | resume place answers => exact (h.resume_sound hS answers hstep).1
  | reset => exact (h.reset_sound hS hstep).1

/-- Whatever runs and in whatever order, the invariant holds. -/
theorem run_sound (hI : I s) (hfresh : ∀ n, Fresh n s) (events : List (Event ι ρ A)) :
    Sound I Fresh R G (exec (step body reset) (Concurrent.start s) events) := by
  refine exec_invariant (fun event S S' hS hstep => h.step_sound hS hstep)
    ⟨hI, fun n _ => hfresh n, fun t ht => ?_, fun t ht => ?_, ?_⟩ events
  · exact absurd ht List.not_mem_nil
  · exact absurd ht List.not_mem_nil
  · exact List.nodup_nil

end Protocol

end Concurrent
