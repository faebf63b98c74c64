import Mathlib

/-!
# Runs, and fibers that take turns

A library about deterministic systems: a state, and a step that an action takes
from one state to the next.  A run is a list of actions.  Nothing here depends
on the program it is used for.

* `run_invariant` — what every step keeps, every run keeps.  The steps may be
  restricted by a condition on the state before the step and the action
  (`AllSteps`).
* `run_potential`, `total_add_le_run`, `total_le_of_budget` — quantities that add up
  along a run (`total`), tied to the state the run ends in or bounded by an allowance
  of the state it starts from.
* `run_simulation` — a run of one system carried over to a run of another, each
  step being answered by the actions it emits (`emitted`).
* `run_clocked` — two systems that take the same actions at times that do not go back,
  related by something that only gets weaker as time passes.
* `Config`, `turn` — cooperative fibers over a shared state.  An action names
  the fiber whose turn it is and what it reads from outside (the clock); the
  fiber runs up to its next suspension point.  An interleaving is a run of
  `turn`, whatever the number of fibers.
-/

namespace Library

section Runs

variable {S A B M : Type*} (step : S → A → S)

/-- The state a list of actions leads to. -/
def run (s : S) (l : List A) : S := l.foldl step s

/-- Every step of the run meets `P` in the state it is taken from. -/
def AllSteps (P : S → A → Prop) : S → List A → Prop
  | _, [] => True
  | s, a :: l => P s a ∧ AllSteps P (step s a) l

/-- What the steps of a run add up to. -/
def total [AddMonoid M] (w : S → A → M) : S → List A → M
  | _, [] => 0
  | s, a :: l => w s a + total w (step s a) l

/-- What the steps of a run emit, in order. -/
def emitted (e : S → A → List B) : S → List A → List B
  | _, [] => []
  | s, a :: l => e s a ++ emitted e (step s a) l

@[simp] theorem run_nil (s : S) : run step s [] = s := rfl

@[simp] theorem run_cons (s : S) (a : A) (l : List A) :
    run step s (a :: l) = run step (step s a) l := rfl

theorem run_append (s : S) (l l' : List A) :
    run step s (l ++ l') = run step (run step s l) l' :=
  List.foldl_append

instance AllSteps.decidable (P : S → A → Prop) [∀ s a, Decidable (P s a)] :
    ∀ (s : S) (l : List A), Decidable (AllSteps step P s l)
  | _, [] => .isTrue trivial
  | s, a :: l =>
      haveI := AllSteps.decidable P (step s a) l
      inferInstanceAs (Decidable (P s a ∧ AllSteps step P (step s a) l))

theorem emitted_append (e : S → A → List B) (s : S) (l l' : List A) :
    emitted step e s (l ++ l') = emitted step e s l ++ emitted step e (run step s l) l' := by
  induction l generalizing s with
  | nil => rfl
  | cons a l ih => rw [List.cons_append, emitted, emitted, ih, run_cons, List.append_assoc]

theorem emitted_map {C : Type*} (f : B → C) (e : S → A → List B) (s : S) (l : List A) :
    emitted step (fun s a => (e s a).map f) s l = (emitted step e s l).map f := by
  induction l generalizing s with
  | nil => rfl
  | cons a l ih => rw [emitted, emitted, ih, List.map_append]

variable {step}

theorem AllSteps.trivial {P : S → A → Prop} (h : ∀ s a, P s a) (s : S) (l : List A) :
    AllSteps step P s l := by
  induction l generalizing s with
  | nil => exact True.intro
  | cons a l ih => exact ⟨h s a, ih _⟩

theorem allSteps_append {P : S → A → Prop} {s : S} {l l' : List A} :
    AllSteps step P s (l ++ l') ↔ AllSteps step P s l ∧ AllSteps step P (run step s l) l' := by
  induction l generalizing s with
  | nil => simp [AllSteps]
  | cons a l ih =>
    rw [List.cons_append, AllSteps, AllSteps, ih, run_cons, and_assoc]

/-- The steps of a run are the actions behind its beginnings. -/
theorem allSteps_iff_beginnings {P : S → A → Prop} {s : S} {l : List A} :
    AllSteps step P s l ↔ ∀ p a, p ++ [a] <+: l → P (run step s p) a := by
  constructor
  · rintro h p a ⟨l', rfl⟩
    rw [List.append_assoc] at h
    exact (allSteps_append.1 h).2.1
  · intro h
    induction l generalizing s with
    | nil => exact True.intro
    | cons a l ih =>
      refine ⟨h [] a ⟨l, rfl⟩, ih fun p b hp => ?_⟩
      exact h (a :: p) b ((List.prefix_cons_inj a).2 hp)

/-- **Invariants.**  What holds at the start and is kept by every step that
meets `P` holds at the end of every run whose steps all meet `P`. -/
theorem run_invariant {I : S → Prop} {P : S → A → Prop}
    (hstep : ∀ s a, I s → P s a → I (step s a)) {s : S} (hs : I s) {l : List A}
    (hl : AllSteps step P s l) : I (run step s l) := by
  induction l generalizing s with
  | nil => exact hs
  | cons a l ih => exact ih (hstep s a hs hl.1) hl.2

/-- What every step that meets `P` does in a state that has the invariant, every
step of a run does. -/
theorem AllSteps.of_invariant {I : S → Prop} {P Q : S → A → Prop}
    (hstep : ∀ s a, I s → P s a → I (step s a) ∧ Q s a) {s : S} (hs : I s) {l : List A}
    (hl : AllSteps step P s l) : AllSteps step Q s l := by
  induction l generalizing s with
  | nil => exact True.intro
  | cons a l ih =>
    obtain ⟨hinv, hQ⟩ := hstep s a hs hl.1
    exact ⟨hQ, ih hinv hl.2⟩

/-- Steps that meet two conditions. -/
theorem AllSteps.and {P Q : S → A → Prop} {s : S} {l : List A} (hP : AllSteps step P s l)
    (hQ : AllSteps step Q s l) : AllSteps step (fun s a => P s a ∧ Q s a) s l := by
  induction l generalizing s with
  | nil => exact True.intro
  | cons a l ih => exact ⟨⟨hP.1, hQ.1⟩, ih hP.2 hQ.2⟩

/-- Two conditions that agree, step by step, as long as the invariant holds and the
first of them keeps it, hold of the same runs. -/
theorem AllSteps.iff_of_invariant {I : S → Prop} {P Q R : S → A → Prop}
    (hiff : ∀ s a, I s → P s a → (Q s a ↔ R s a))
    (hstep : ∀ s a, I s → P s a → Q s a → I (step s a)) {s : S} (hs : I s) {l : List A}
    (hl : AllSteps step P s l) : AllSteps step Q s l ↔ AllSteps step R s l := by
  induction l generalizing s with
  | nil => exact Iff.rfl
  | cons a l ih =>
    have hhead := hiff s a hs hl.1
    constructor
    · rintro ⟨hQ, hrest⟩
      exact ⟨hhead.1 hQ, (ih (hstep s a hs hl.1 hQ) hl.2).1 hrest⟩
    · rintro ⟨hR, hrest⟩
      have hQ := hhead.2 hR
      exact ⟨hQ, (ih (hstep s a hs hl.1 hQ) hl.2).2 hrest⟩

/-- **Potentials.**  If every step moves `Φ` by exactly its weight, a run moves
`Φ` by exactly its total weight. -/
theorem run_potential [AddMonoid M] {I : S → Prop} {P : S → A → Prop} {Φ : S → M} {w : S → A → M}
    (hstep : ∀ s a, I s → P s a → I (step s a) ∧ Φ (step s a) = Φ s + w s a) {s : S}
    (hs : I s) {l : List A} (hl : AllSteps step P s l) :
    Φ (run step s l) = Φ s + total step w s l := by
  induction l generalizing s with
  | nil => simp [total]
  | cons a l ih =>
    obtain ⟨hinv, hΦ⟩ := hstep s a hs hl.1
    rw [run_cons, ih hinv hl.2, hΦ, total, add_assoc]

/-- If every step moves `Φ` by its weight at least, so does a run. -/
theorem total_add_le_run {I : S → Prop} {P : S → A → Prop} {w : S → A → ℕ} {Φ : S → ℕ}
    (hstep : ∀ s a, I s → P s a → I (step s a) ∧ w s a + Φ s ≤ Φ (step s a)) {s : S}
    (hs : I s) {l : List A} (hl : AllSteps step P s l) :
    total step w s l + Φ s ≤ Φ (run step s l) := by
  induction l generalizing s with
  | nil => simp [total]
  | cons a l ih =>
    obtain ⟨hinv, hΦ⟩ := hstep s a hs hl.1
    have := ih hinv hl.2
    rw [total, run_cons]
    omega

/-- **Budgets.**  If every step pays for its weight out of the allowance of the
state it is taken from, no run weighs more than the allowance it starts with. -/
theorem total_le_of_budget {I : S → Prop} {P : S → A → Prop} {w : S → A → ℕ} {φ : S → ℕ}
    (hstep : ∀ s a, I s → P s a → I (step s a) ∧ w s a + φ (step s a) ≤ φ s) {s : S}
    (hs : I s) {l : List A} (hl : AllSteps step P s l) :
    total step w s l ≤ φ s := by
  induction l generalizing s with
  | nil => exact Nat.zero_le _
  | cons a l ih =>
    obtain ⟨hinv, hpay⟩ := hstep s a hs hl.1
    have := ih hinv hl.2
    rw [total]
    omega

/-- **Simulation.**  If the actions emitted by each step keep the two systems
related, the two systems are related at the end of a run and of what it emits. -/
theorem run_simulation {S' : Type*} {step' : S' → B → S'} {R : S → S' → Prop}
    {P : S → A → Prop} {e : S → A → List B}
    (hstep : ∀ s s' a, R s s' → P s a → R (step s a) (run step' s' (e s a))) {s : S} {s' : S'}
    (hs : R s s') {l : List A} (hl : AllSteps step P s l) :
    R (run step s l) (run step' s' (emitted step e s l)) := by
  induction l generalizing s s' with
  | nil => exact hs
  | cons a l ih =>
    rw [run_cons, emitted, run_append]
    exact ih (hstep s s' a hs hl.1) hl.2

/-- **Time passes.**  If a relation between two systems only gets weaker with time and
every action keeps it at its own time, then at the end of a run whose times do not go
back it holds at every time not before them. -/
theorem run_clocked {S' T : Type*} [Preorder T] {step' : S' → A → S'} {time : A → T}
    {R : T → S → S' → Prop} (hmono : ∀ t t' s s', t ≤ t' → R t s s' → R t' s s')
    (hstep : ∀ s s' a, R (time a) s s' → R (time a) (step s a) (step' s' a)) {s : S} {s' : S'}
    (hs : ∀ t, R t s s') {l : List A} {t : T} (hl : (l.map time ++ [t]).Pairwise (· ≤ ·)) :
    R t (run step s l) (run step' s' l) := by
  induction l using List.reverseRecOn generalizing t with
  | nil => exact hs t
  | append_singleton l a ih =>
    rw [List.map_append, List.append_assoc, List.map_singleton] at hl
    have hlast : time a ≤ t := by
      have := (List.pairwise_append.1 hl).2.1
      simpa using this
    have hbefore : (l.map time ++ [time a]).Pairwise (· ≤ ·) := by
      rw [← List.append_assoc] at hl
      exact (List.pairwise_append.1 hl).1
    rw [run_append, run_append]
    exact hmono _ _ _ _ hlast (hstep _ _ a (ih hbefore))

end Runs

/-! ## Fibers -/

/-- A shared state and the fibers that work on it, each at its own point. -/
structure Config (ι σ ρ : Type*) where
  /-- What all fibers see. -/
  shared : σ
  /-- Where each fiber is, with its local variables. -/
  fiber : ι → ρ

namespace Config

variable {ι σ ρ ε : Type*} [DecidableEq ι] (resume : ε → ρ → σ → ρ × σ)

/-- The turn of one fiber: it is resumed and runs to its next suspension point. -/
def turn (c : Config ι σ ρ) (a : ι × ε) : Config ι σ ρ :=
  ⟨(resume a.2 (c.fiber a.1) c.shared).2,
    Function.update c.fiber a.1 (resume a.2 (c.fiber a.1) c.shared).1⟩

@[simp] theorem turn_shared (c : Config ι σ ρ) (i : ι) (x : ε) :
    (c.turn resume (i, x)).shared = (resume x (c.fiber i) c.shared).2 := rfl

@[simp] theorem turn_fiber_self (c : Config ι σ ρ) (i : ι) (x : ε) :
    (c.turn resume (i, x)).fiber i = (resume x (c.fiber i) c.shared).1 :=
  Function.update_self ..

theorem turn_fiber_of_ne (c : Config ι σ ρ) {i j : ι} (x : ε) (h : j ≠ i) :
    (c.turn resume (i, x)).fiber j = c.fiber j :=
  Function.update_of_ne h ..

/-- A fiber that has no turn in a run stays where it is. -/
theorem run_fiber_of_ne (c : Config ι σ ρ) {j : ι} {l : List (ι × ε)} (h : ∀ x ∈ l, x.1 ≠ j) :
    (run (turn resume) c l).fiber j = c.fiber j := by
  induction l generalizing c with
  | nil => rfl
  | cons x l ih =>
    have hx : j ≠ x.1 := (h x List.mem_cons_self).symm
    rw [run_cons, ih _ fun y hy => h y (List.mem_cons_of_mem x hy)]
    exact turn_fiber_of_ne resume c x.2 hx

/-- A fiber that takes all the turns: where it gets to, and the shared state it leaves. -/
def alone (p : ρ × σ) (l : List ε) : ρ × σ := l.foldl (fun p x => resume x p.1 p.2) p

/-- Turns of a single fiber are the fiber on its own. -/
theorem run_alone (c : Config ι σ ρ) (i : ι) (l : List ε) :
    ((run (turn resume) c (l.map fun x => (i, x))).fiber i,
      (run (turn resume) c (l.map fun x => (i, x))).shared) =
        alone resume (c.fiber i, c.shared) l := by
  induction l generalizing c with
  | nil => rfl
  | cons x l ih =>
    rw [List.map_cons, run_cons, ih, turn_fiber_self, turn_shared]
    rfl

end Config

end Library
