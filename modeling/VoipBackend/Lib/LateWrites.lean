import VoipBackend.Lib.Execution

/-!
# A store whose operations may come late

A library about a store of values under keys.  An operation is carried out at once, or it is put off
and carried out at any later time, or never.  It names nothing of the program that uses it.

* `store_run_of_quiet` — a key keeps its value in every run in which no operation writes it, and
  which starts with none that writes it put off.
-/

namespace Library

variable {K V : Type*} [DecidableEq K]

/-- An operation on one key. -/
inductive KeyOp (K V : Type*) where
  | read (k : K)
  | put (k : K) (v : V)
  | erase (k : K)

namespace KeyOp

/-- The operation changes what is under the key. -/
def Writes (k : K) : KeyOp K V → Prop
  | .read _ => False
  | .put k' _ => k' = k
  | .erase k' => k' = k

/-- The store after the operation. -/
def apply (m : K → Option V) : KeyOp K V → K → Option V
  | .read _ => m
  | .put k v => Function.update m k (some v)
  | .erase k => Function.update m k none

theorem apply_of_not_writes {op : KeyOp K V} {k : K} (h : ¬ op.Writes k) (m : K → Option V) :
    op.apply m k = m k := by
  cases op with
  | read k' => rfl
  | put k' v => exact Function.update_of_ne (Ne.symm h) _ _
  | erase k' => exact Function.update_of_ne (Ne.symm h) _ _

end KeyOp

/-- A store, and the operations that have been put off. -/
structure LateStore (K V : Type*) where
  store : K → Option V
  late : List (KeyOp K V)

/-- What becomes of an operation. -/
inductive Delivery (K V : Type*) where
  | now (op : KeyOp K V)
  | putOff (op : KeyOp K V)
  | late (i : ℕ)

/-- The operation that comes with the delivery writes the key. -/
def Delivery.Writes (k : K) : Delivery K V → Prop
  | .now op => op.Writes k
  | .putOff op => op.Writes k
  | .late _ => False

namespace LateStore

/-- One delivery. -/
def step (m : LateStore K V) : Delivery K V → LateStore K V
  | .now op => { m with store := op.apply m.store }
  | .putOff op => { m with late := m.late ++ [op] }
  | .late i =>
      match m.late[i]? with
      | none => m
      | some op => ⟨op.apply m.store, m.late.eraseIdx i⟩

/-- Nothing that has been put off writes the key. -/
def Quiet (k : K) (m : LateStore K V) : Prop := ∀ op ∈ m.late, ¬ op.Writes k

theorem Quiet.step {m : LateStore K V} {k : K} (h : m.Quiet k) {d : Delivery K V}
    (hd : ¬ d.Writes k) : (m.step d).Quiet k ∧ (m.step d).store k = m.store k := by
  cases d with
  | now op => exact ⟨h, KeyOp.apply_of_not_writes hd m.store⟩
  | putOff op =>
    refine ⟨?_, rfl⟩
    intro op' hop'
    rcases List.mem_append.1 hop' with hop' | hop'
    · exact h op' hop'
    · rw [List.mem_singleton.1 hop']
      exact hd
  | late i =>
    cases hop : m.late[i]? with
    | none => simpa [LateStore.step, hop] using h
    | some op =>
      have hquiet := h op (List.mem_of_getElem? hop)
      simp only [LateStore.step, hop]
      exact ⟨fun op' hop' => h op' (List.mem_of_mem_eraseIdx hop'),
        KeyOp.apply_of_not_writes hquiet m.store⟩

/-- **A key nobody writes keeps its value.** -/
theorem store_run_of_quiet {m : LateStore K V} {k : K} (h : m.Quiet k) {l : List (Delivery K V)}
    (hl : ∀ d ∈ l, ¬ d.Writes k) : (run step m l).store k = m.store k := by
  induction l generalizing m with
  | nil => rfl
  | cons d l ih =>
    obtain ⟨hd, hl⟩ := List.forall_mem_cons.1 hl
    obtain ⟨hquiet, hsame⟩ := h.step hd
    rw [run_cons, ih hquiet hl, hsame]

end LateStore

end Library
