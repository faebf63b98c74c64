import Mathlib

/-!
# Recursive mutexes

A lock that its owner may take again, and that is free when it has been given back as often.
Nothing here depends on the program it is used for.

* `lock_eq_none_iff` — who has to wait.
* `depth_lock`, `depth_unlock` — how often each thread holds the lock afterwards.
* `depth_unique` — only one thread holds it.
-/

namespace Library

/-- A mutex: free, or held by a thread, so many more times than once. -/
inductive Mutex (T : Type*) where
  | free
  | held (owner : T) (more : ℕ)
  deriving DecidableEq

namespace Mutex

variable {T : Type*} [DecidableEq T]

/-- The lock taken by `t`, if it need not wait. -/
def lock (t : T) : Mutex T → Option (Mutex T)
  | .free => some (.held t 0)
  | .held owner more => if owner = t then some (.held t (more + 1)) else none

/-- The lock given back by `t`, once; nothing happens if it is not its own. -/
def unlock (t : T) : Mutex T → Mutex T
  | .free => .free
  | .held owner more =>
      if owner = t then
        match more with
        | 0 => .free
        | more + 1 => .held t more
      else .held owner more

/-- How often a thread holds the lock. -/
def depth (t : T) : Mutex T → ℕ
  | .free => 0
  | .held owner more => if owner = t then more + 1 else 0

@[simp] theorem depth_free (t : T) : depth t .free = 0 := rfl

theorem depth_unique {m : Mutex T} {t u : T} (ht : 0 < m.depth t) (hu : 0 < m.depth u) :
    t = u := by
  cases m with
  | free => cases ht
  | held owner more =>
    by_cases howner : owner = t
    · by_cases howner' : owner = u
      · exact howner.symm.trans howner'
      · simp [depth, howner'] at hu
    · simp [depth, howner] at ht

/-- Who waits, waits for another thread. -/
theorem lock_eq_none_iff {m : Mutex T} {t : T} :
    m.lock t = none ↔ ∃ u, u ≠ t ∧ 0 < m.depth u := by
  cases m with
  | free => simp [lock]
  | held owner more =>
    by_cases howner : owner = t
    · simp [lock, depth, howner, eq_comm]
    · refine iff_of_true (if_neg howner) ⟨owner, howner, ?_⟩
      simp [depth]

theorem depth_lock {m m' : Mutex T} {t : T} (h : m.lock t = some m') (u : T) :
    m'.depth u = m.depth u + if u = t then 1 else 0 := by
  cases m with
  | free =>
    cases h
    simp [depth, eq_comm]
  | held owner more =>
    by_cases howner : owner = t
    · subst howner
      rw [lock, if_pos rfl] at h
      cases h
      by_cases hu : owner = u
      · simp [depth, hu]
      · simp [depth, hu, Ne.symm hu]
    · rw [lock, if_neg howner] at h
      cases h

theorem depth_unlock {m : Mutex T} {t : T} (h : 0 < m.depth t) (u : T) :
    (m.unlock t).depth u + (if u = t then 1 else 0) = m.depth u := by
  cases m with
  | free => cases h
  | held owner more =>
    by_cases howner : owner = t
    · subst howner
      by_cases hu : u = owner
      · cases more <;> simp [unlock, depth, hu]
      · cases more <;> simp [unlock, depth, hu, Ne.symm hu]
    · simp [depth, howner] at h

end Mutex

end Library
