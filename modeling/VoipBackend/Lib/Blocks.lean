import Mathlib

/-!
# Block by block

A library about functions that consume a list in blocks of one size, such as a hash that is
iterated over the blocks of a message.  Nothing here depends on the program it is used
for.

* `absorb` — the whole blocks of a list, folded in order from a start value.
* `leftover` — what is left of the list after its whole blocks.
* `absorb_append`, `leftover_append` — a list that comes in two pieces: what was left over
  of the first piece goes in front of the second.
-/

namespace Library

variable {H α : Type*} (f : H → List α → H) (size : ℕ)

/-- The first `n` blocks of a list, folded in order. -/
def foldBlocks : ℕ → H → List α → H
  | 0, h, _ => h
  | n + 1, h, l => foldBlocks n (f h (l.take size)) (l.drop size)

/-- The whole blocks of a list, folded in order. -/
def absorb (h : H) (l : List α) : H := foldBlocks f size (l.length / size) h l

/-- What is left after the whole blocks. -/
def leftover (l : List α) : List α := l.drop (size * (l.length / size))

variable {f size}

theorem length_leftover (l : List α) : (leftover size l).length = l.length % size := by
  rw [leftover, List.length_drop]
  exact (Nat.mod_eq_sub_mul_div).symm

theorem leftover_of_length_lt {l : List α} (h : l.length < size) : leftover size l = l := by
  rw [leftover, Nat.div_eq_of_lt h, Nat.mul_zero, List.drop_zero]

theorem absorb_of_length_lt (h : H) {l : List α} (hl : l.length < size) :
    absorb f size h l = h := by
  rw [absorb, Nat.div_eq_of_lt hl, foldBlocks]

theorem length_append_div {b l : List α} (hsize : 0 < size) (hb : b.length = size) :
    (b ++ l).length / size = l.length / size + 1 := by
  rw [List.length_append, hb, Nat.add_comm, Nat.add_div_right _ hsize]

/-- A block in front of a list. -/
theorem absorb_block_append (hsize : 0 < size) (h : H) {b : List α} (hb : b.length = size)
    (l : List α) : absorb f size h (b ++ l) = absorb f size (f h b) l := by
  rw [absorb, length_append_div hsize hb, foldBlocks, List.take_left' hb, List.drop_left' hb]
  rfl

theorem leftover_block_append (hsize : 0 < size) {b : List α} (hb : b.length = size)
    (l : List α) : leftover size (b ++ l) = leftover size l := by
  rw [leftover, length_append_div hsize hb, Nat.mul_succ, Nat.add_comm, ← List.drop_drop,
    List.drop_left' hb]
  rfl

/-- A list is a block and the rest, or has no whole block. -/
theorem exists_block {l : List α} (h : ¬ l.length < size) :
    ∃ b l', b.length = size ∧ l = b ++ l' := by
  refine ⟨l.take size, l.drop size, ?_, (List.take_append_drop size l).symm⟩
  rw [List.length_take]
  omega

/-- **Two pieces.**  What the first piece leaves over is absorbed with the second. -/
theorem absorb_append (hsize : 0 < size) (h : H) (l l' : List α) :
    absorb f size h (l ++ l') = absorb f size (absorb f size h l) (leftover size l ++ l') := by
  induction hn : l.length using Nat.strong_induction_on generalizing h l with
  | _ n ih =>
    by_cases hlt : l.length < size
    · rw [absorb_of_length_lt h hlt, leftover_of_length_lt hlt]
    · obtain ⟨b, rest, hb, rfl⟩ := exists_block hlt
      rw [List.length_append] at hn
      rw [List.append_assoc, absorb_block_append hsize h hb, absorb_block_append hsize h hb,
        leftover_block_append hsize hb]
      exact ih _ (by omega) _ rest rfl

theorem leftover_append (hsize : 0 < size) (l l' : List α) :
    leftover size (l ++ l') = leftover size (leftover size l ++ l') := by
  induction hn : l.length using Nat.strong_induction_on generalizing l with
  | _ n ih =>
    by_cases hlt : l.length < size
    · rw [leftover_of_length_lt hlt]
    · obtain ⟨b, rest, hb, rfl⟩ := exists_block hlt
      rw [List.length_append] at hn
      rw [List.append_assoc, leftover_block_append hsize hb, leftover_block_append hsize hb]
      exact ih _ (by omega) rest rfl

end Library
