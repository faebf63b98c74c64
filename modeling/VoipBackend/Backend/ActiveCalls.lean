import VoipBackend.Backend.Rating

/-!
# Two ways to count the calls of a caller

`count_active_calls` looks its caller up in the index `by_caller`.  Without the index it goes
through all dialogs, and takes those whose `from_tag` *contains* the caller.  The two agree exactly
if no other caller contains this one (`counts_agree_iff`).
-/

namespace VoipBackend

open Library

/-- `string.find(s, pattern, 1, true)`: where the pattern starts first, from 1 on. -/
def stringFind (pattern : LuaString) : LuaString → Option ℕ
  | [] => if pattern = [] then some 1 else none
  | c :: s =>
      if pattern.isPrefixOf (c :: s) then some 1 else (stringFind pattern s).map (· + 1)

/-- `count_active_calls` without the index. -/
def countActiveCallsByScan (b : Box) (caller : LuaString) : ℕ :=
  b.kamDialogs.rows.countP fun dlg => (stringFind caller dlg.fromTag).isSome

theorem stringFind_isSome_iff (pattern s : LuaString) :
    (stringFind pattern s).isSome ↔ pattern <:+: s := by
  induction s with
  | nil =>
    rw [stringFind, List.infix_nil]
    split_ifs with h
    · exact iff_of_true rfl h
    · exact iff_of_false (by simp) h
  | cons c s ih =>
    rw [stringFind, List.infix_cons_iff]
    split_ifs with h
    · exact iff_of_true rfl (Or.inl (List.isPrefixOf_iff_prefix.1 h))
    · rw [Option.isSome_map, ih, or_iff_right (mt List.isPrefixOf_iff_prefix.2 h)]

/-- Of two tests, one of which passes whatever passes the other, the counts agree if both pass the
same elements. -/
theorem countP_eq_countP_iff {α : Type} {p q : α → Bool} {l : List α} (h : ∀ x ∈ l, p x → q x) :
    l.countP p = l.countP q ↔ ∀ x ∈ l, q x → p x := by
  induction l with
  | nil => simp
  | cons x l ih =>
    have hrest : ∀ y ∈ l, p y → q y := fun y hy => h y (List.mem_cons_of_mem x hy)
    have hle := List.countP_mono_left hrest
    rw [List.forall_mem_cons, ← ih hrest, List.countP_cons, List.countP_cons]
    have hx := h x List.mem_cons_self
    by_cases hp : p x = true
    · rw [if_pos hp, if_pos (hx hp), Nat.add_right_cancel_iff, and_iff_right fun _ => hp]
    · by_cases hq : q x = true
      · rw [if_neg hp, if_pos hq]
        exact iff_of_false (by omega) fun hboth => hp (hboth.1 hq)
      · rw [if_neg hp, if_neg hq, Nat.add_right_cancel_iff, and_iff_right fun hq' => absurd hq' hq]

/-- **When the two counts agree.**  No dialog of another caller has this one in its `from_tag`. -/
theorem counts_agree_iff (b : Box) (caller : LuaString) :
    countActiveCalls b caller = countActiveCallsByScan b caller ↔
      ∀ dlg ∈ b.kamDialogs.rows, caller <:+: dlg.fromTag → dlg.fromTag = caller := by
  have himp : ∀ dlg ∈ b.kamDialogs.rows, decide (dlg.fromTag = caller) = true →
      (stringFind caller dlg.fromTag).isSome = true := by
    intro dlg _ heq
    rw [stringFind_isSome_iff, of_decide_eq_true heq]
  rw [countActiveCalls, countActiveCallsByScan, countP_eq_countP_iff himp]
  simp only [stringFind_isSome_iff, decide_eq_true_eq]

/-- **A caller who is part of another.**  `alice` has a call, and the scan counts it for `ali`. -/
theorem counts_differ :
    ¬ ∀ (b : Box) (caller : LuaString),
      countActiveCalls b caller = countActiveCallsByScan b caller := by
  intro h
  have hcounts := h (authorizeCall noon (aliceCall "c1") (shop 10 1 1 0)).2 (ascii "ali")
  revert hcounts
  decide +kernel

end VoipBackend
