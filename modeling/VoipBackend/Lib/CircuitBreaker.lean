import VoipBackend.Lib.Execution

/-!
# Circuit breakers

A library about the usual guard of a connection: faults are counted, a success sets the
count back, and when the count reaches a threshold the breaker opens until a deadline.
Nothing here depends on the program it is used for.

A system that keeps a breaker beside other things is described by what it shows of the
breaker (`view`) and by the signals each of its actions gives
(`signals`).  If the signals explain the view step by step, a window of actions that each
end in a fault, and do not set the count back after the first of them, counts as many
faults as it has actions (`le_errors_of_window`), and the fault that reaches the threshold
opens the breaker (`openUntil_of_errors`).
-/

namespace Library

/-- A breaker: the faults since the count was last set back, and the deadline if it is
open. -/
structure Breaker where
  errors : ℕ
  openUntil : Option ℤ
  deriving DecidableEq

/-- What a breaker is told. -/
inductive Signal where
  /-- Something went wrong at this time. -/
  | fault (t : ℤ)
  /-- The count starts again. -/
  | reset
  deriving DecidableEq

namespace Breaker

/-- One signal. -/
def step (threshold cool : ℤ) (b : Breaker) : Signal → Breaker
  | .fault t => ⟨b.errors + 1, if threshold ≤ (b.errors + 1 : ℕ) then some (t + cool) else none⟩
  | .reset => ⟨0, none⟩

variable {threshold cool : ℤ}

theorem openUntil_fault {b : Breaker} (h : threshold ≤ (b.errors + 1 : ℕ)) (t : ℤ) :
    (b.step threshold cool (.fault t)).openUntil = some (t + cool) := by
  simp only [step, if_pos h]

section Window

variable {S A : Type*} {stepS : S → A → S} {I : S → Prop} {view : S → Breaker}
  {signals : S → A → List Signal}

/-- A list of signals that ends in a fault leaves a fault counted. -/
theorem one_le_errors (b : Breaker) (pre : List Signal) (t : ℤ) :
    1 ≤ (run (step threshold cool) b (pre ++ [.fault t])).errors := by
  rw [run_append]
  exact Nat.le_add_left 1 _

/-- Actions that each give one fault add up. -/
theorem errors_of_faults
    (hview : ∀ s a, I s → I (stepS s a) ∧
      view (stepS s a) = run (step threshold cool) (view s) (signals s a)) {s : S} (hs : I s)
    {l : List A} (hl : AllSteps stepS (fun s a => ∃ t, signals s a = [.fault t]) s l) :
    (view (run stepS s l)).errors = (view s).errors + l.length := by
  induction l generalizing s with
  | nil => rfl
  | cons a l ih =>
    obtain ⟨⟨t, ht⟩, hl⟩ := hl
    obtain ⟨hinv, hstep⟩ := hview s a hs
    have hone : (view (stepS s a)).errors = (view s).errors + 1 := by
      rw [hstep, ht]
      rfl
    rw [run_cons, ih hinv hl, hone, List.length_cons]
    omega

/-- **The count.**  A window of actions, the first of which ends in a fault and the others of
which give one fault each, counts as many faults as it has actions. -/
theorem le_errors_of_window
    (hview : ∀ s a, I s → I (stepS s a) ∧
      view (stepS s a) = run (step threshold cool) (view s) (signals s a)) {s : S} (hs : I s)
    {a : A} {l : List A} (hfirst : ∃ pre t, signals s a = pre ++ [.fault t])
    (hrest : AllSteps stepS (fun s a => ∃ t, signals s a = [.fault t]) (stepS s a) l) :
    (a :: l).length ≤ (view (run stepS s (a :: l))).errors := by
  obtain ⟨pre, t, ht⟩ := hfirst
  obtain ⟨hinv, hstep⟩ := hview s a hs
  have hone : 1 ≤ (view (stepS s a)).errors := by
    rw [hstep, ht]
    exact one_le_errors _ pre t
  rw [run_cons, errors_of_faults hview hinv hrest, List.length_cons]
  omega

/-- **The deadline.**  An action that ends in a fault and leaves the count at the threshold
leaves the breaker open. -/
theorem openUntil_of_errors {b b' : Breaker} {signals : List Signal}
    (hview : b' = run (step threshold cool) b signals) {pre : List Signal} {t : ℤ}
    (hlast : signals = pre ++ [.fault t]) (h : threshold ≤ b'.errors) :
    b'.openUntil = some (t + cool) := by
  rw [hview, hlast, run_append, run_cons, run_nil] at h ⊢
  exact openUntil_fault h t

end Window

end Breaker

end Library
