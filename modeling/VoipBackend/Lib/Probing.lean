import Mathlib.Data.List.Count
import Mathlib.Data.List.Nodup
import Mathlib.Logic.Function.Basic

/-!
# Open addressing without tombstones

A small library about hash tables with open addressing.  A key is looked for in the slots of its
probe run, one after another.  A slot is free or holds a key with a value; the removal of a key
frees its slot, also in the middle of a run, and a lookup passes over free slots.

* `find`, `store`, `erase` — the operations along a probe run.
* `find_store`, `find_store_of_ne`, `find_erase_of_ne` — a stored key is found with its new value,
  and no operation changes what is found of another key.
* `find_erase_eq_none_iff` — a removed key is gone exactly if no more than one slot of its run held
  it.  There may be two: a store takes the first free slot, also in front of the slot that has the
  key.
-/

namespace Library

namespace Probing

variable {ι κ ν : Type*} [DecidableEq κ]

/-- The slots of a table. -/
abbrev Slots (ι κ ν : Type*) := ι → Option (κ × ν)

variable (t : Slots ι κ ν) (k : κ)

/-- The value in the first slot of a run that has the key. -/
def find : List ι → Option ν
  | [] => none
  | i :: l =>
      match t i with
      | none => find l
      | some (k', v) => if k' = k then some v else find l

section Writing

variable [DecidableEq ι]

/-- The key and the value are put into the first slot of a run that is free or has the key. -/
def store (v : ν) : List ι → Slots ι κ ν
  | [] => t
  | i :: l =>
      match t i with
      | none => Function.update t i (some (k, v))
      | some (k', _) => if k' = k then Function.update t i (some (k, v)) else store v l

/-- The first slot of a run that has the key is freed. -/
def erase : List ι → Slots ι κ ν
  | [] => t
  | i :: l =>
      match t i with
      | none => erase l
      | some (k', _) => if k' = k then Function.update t i none else erase l

end Writing

/-- A slot has the key. -/
def Holds (i : ι) : Prop := (t i).map Prod.fst = some k

instance : DecidablePred (Holds t k) := fun i =>
  inferInstanceAs (Decidable ((t i).map Prod.fst = some k))

/-- A slot of the run is free or has the key. -/
def HasRoom (l : List ι) : Prop := ∃ i ∈ l, (t i).isNone = true ∨ Holds t k i

instance (l : List ι) : Decidable (HasRoom t k l) :=
  inferInstanceAs (Decidable (∃ i ∈ l, (t i).isNone = true ∨ Holds t k i))

/-! ## Looking up -/

variable {t k}

/-- Only the slots of the run matter to a lookup. -/
theorem find_congr {t' : Slots ι κ ν} {l : List ι} (h : ∀ i ∈ l, t i = t' i) :
    find t k l = find t' k l := by
  induction l with
  | nil => rfl
  | cons i l ih =>
    obtain ⟨hi, hl⟩ := List.forall_mem_cons.1 h
    rw [find, find, hi, ih hl]

theorem find_eq_none_iff {l : List ι} : find t k l = none ↔ ∀ i ∈ l, ¬ Holds t k i := by
  induction l with
  | nil => simp [find]
  | cons i l ih =>
    rw [find, List.forall_mem_cons, ← ih, Holds]
    cases ht : t i with
    | none => simp
    | some e =>
      by_cases hk : e.1 = k
      · simp [hk]
      · simp [hk]

/-! ## Storing -/

variable [DecidableEq ι]

/-- A slot that has another key before and after does not matter to a lookup. -/
theorem find_update (i : ι) {x : Option (κ × ν)} (hold : ¬ Holds t k i)
    (hnew : x.map Prod.fst ≠ some k) (l : List ι) :
    find (Function.update t i x) k l = find t k l := by
  induction l with
  | nil => rfl
  | cons j l ih =>
    rw [find, find, ih]
    by_cases hj : j = i
    · subst hj
      rw [Function.update_self]
      cases ht : t j with
      | none =>
        cases x with
        | none => rfl
        | some e =>
          have hne : e.1 ≠ k := fun heq => hnew (congrArg some heq)
          simp only [if_neg hne]
      | some e' =>
        have hne' : e'.1 ≠ k := fun heq => hold (by rw [Holds, ht]; exact congrArg some heq)
        cases x with
        | none => simp only [if_neg hne']
        | some e =>
          have hne : e.1 ≠ k := fun heq => hnew (congrArg some heq)
          simp only [if_neg hne, if_neg hne']
    · rw [Function.update_of_ne hj]

/-- A store changes one slot at most, one that is free or has the key. -/
theorem store_cases (v : ν) (l : List ι) :
    store t k v l = t ∨ ∃ i, ((t i).isNone = true ∨ Holds t k i) ∧
      store t k v l = Function.update t i (some (k, v)) := by
  induction l with
  | nil => exact Or.inl rfl
  | cons i l ih =>
    rw [store]
    cases ht : t i with
    | none => exact Or.inr ⟨i, Or.inl (by rw [ht]; rfl), rfl⟩
    | some e =>
      by_cases hk : e.1 = k
      · simp only [if_pos hk]
        exact Or.inr ⟨i, Or.inr (by rw [Holds, ht]; exact congrArg some hk), rfl⟩
      · simp only [if_neg hk]
        exact ih

/-- A key that is stored is found, with the value it was stored with. -/
theorem find_store (v : ν) {l : List ι} (h : HasRoom t k l) :
    find (store t k v l) k l = some v := by
  induction l with
  | nil =>
    obtain ⟨i, hi, -⟩ := h
    cases hi
  | cons i l ih =>
    rw [store]
    cases ht : t i with
    | none => simp [find]
    | some e =>
      by_cases hk : e.1 = k
      · simp [find, hk]
      · -- the slot has another key, which it keeps
        have hroom : HasRoom t k l := by
          obtain ⟨j, hj, htakes⟩ := h
          rcases List.mem_cons.1 hj with rfl | hj
          · rw [Holds, ht] at htakes
            simp [hk] at htakes
          · exact ⟨j, hj, htakes⟩
        have hkept : store t k v l i = some e := by
          rcases store_cases (t := t) (k := k) v l with heq | ⟨j, htakes, heq⟩
          · rw [heq, ht]
          · have hji : i ≠ j := by
              rintro rfl
              rw [Holds, ht] at htakes
              simp [hk] at htakes
            rw [heq, Function.update_of_ne hji, ht]
        simp only [if_neg hk, find, hkept]
        exact ih hroom

/-- What is found of another key stays. -/
theorem find_store_of_ne {k' : κ} (h : k' ≠ k) (v : ν) (l l' : List ι) :
    find (store t k v l) k' l' = find t k' l' := by
  rcases store_cases (t := t) (k := k) v l with heq | ⟨i, htakes, heq⟩
  · rw [heq]
  · rw [heq, find_update i]
    · rcases htakes with hfree | hholds
      · rw [Holds, Option.isNone_iff_eq_none.1 hfree]
        simp
      · rw [Holds] at hholds ⊢
        rw [hholds]
        simpa using Ne.symm h
    · simpa using Ne.symm h

/-! ## Removing -/

/-- A removal frees one slot at most, one that has the key. -/
theorem erase_cases (l : List ι) :
    erase t k l = t ∨ ∃ i, Holds t k i ∧ erase t k l = Function.update t i none := by
  induction l with
  | nil => exact Or.inl rfl
  | cons i l ih =>
    rw [erase]
    cases ht : t i with
    | none => exact ih
    | some e =>
      by_cases hk : e.1 = k
      · simp only [if_pos hk]
        exact Or.inr ⟨i, by rw [Holds, ht]; exact congrArg some hk, rfl⟩
      · simp only [if_neg hk]
        exact ih

theorem find_erase_of_ne {k' : κ} (h : k' ≠ k) (l l' : List ι) :
    find (erase t k l) k' l' = find t k' l' := by
  rcases erase_cases (t := t) (k := k) l with heq | ⟨i, hholds, heq⟩
  · rw [heq]
  · rw [heq, find_update i]
    · rw [Holds] at hholds ⊢
      rw [hholds]
      simpa using Ne.symm h
    · simp

/-- **A removed key is gone** exactly if no second slot of the run has it. -/
theorem find_erase_eq_none_iff {l : List ι} (hl : l.Nodup) :
    find (erase t k l) k l = none ↔ l.countP (fun i => decide (Holds t k i)) ≤ 1 := by
  induction l with
  | nil => simp [find]
  | cons i l ih =>
    obtain ⟨hi, hl⟩ := List.nodup_cons.1 hl
    rw [erase]
    by_cases hholds : Holds t k i
    · have hrest : find (Function.update t i none) k l = find t k l := by
        refine find_congr fun j hj => Function.update_of_ne ?_ _ _
        rintro rfl
        exact hi hj
      have hzero : l.countP (fun i => decide (Holds t k i)) = 0 ↔ find t k l = none := by
        rw [find_eq_none_iff, List.countP_eq_zero]
        simp
      have hcount : (i :: l).countP (fun i => decide (Holds t k i)) ≤ 1 ↔
          l.countP (fun i => decide (Holds t k i)) = 0 := by
        simp only [List.countP_cons, decide_eq_true hholds, if_true]
        omega
      rw [hcount, hzero]
      cases ht : t i with
      | none =>
        rw [Holds, ht] at hholds
        cases hholds
      | some e =>
        have hk : e.1 = k := by
          rw [Holds, ht] at hholds
          exact Option.some.inj hholds
        simp only [if_pos hk, find, Function.update_self]
        rw [hrest]
    · have hcount : (i :: l).countP (fun i => decide (Holds t k i)) =
          l.countP (fun i => decide (Holds t k i)) := by
        simp [hholds]
      rw [hcount, ← ih hl]
      have hkept : erase t k l i = t i := by
        rcases erase_cases (t := t) (k := k) l with heq | ⟨j, hj, heq⟩
        · rw [heq]
        · have hji : i ≠ j := by
            rintro rfl
            exact hholds hj
          rw [heq, Function.update_of_ne hji]
      cases ht : t i with
      | none => simp only [find, hkept, ht]
      | some e =>
        have hk : e.1 ≠ k := fun heq => hholds (by rw [Holds, ht]; exact congrArg some heq)
        simp only [if_neg hk, find, hkept, ht]

end Probing

end Library
