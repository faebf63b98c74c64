import VoipBackend.Lib.Execution

/-!
# Slots that take turns

A library about systems that work side by side and get the actions of a run in turn: the first system
the first action, the second one the second, and after the last one the first again.  It names
nothing of the program that uses it.

* `lane n i` — the actions a system gets that has to wait for `i` others, of `n` in all.
* `slots_run` — each system ends where it ends on its own with the actions of its lane.
* `length_lane` — the lanes of a run differ by one action at most.
* `exclusive_iff` — turns that take their time are never two at one system, as long as a turn is only
  taken when those that are not over are among the last ones.
* `serial` — then they come out as if each had been over before the next was taken.
-/

namespace Library

variable {S A : Type*}

/-- Every `n`-th action, from the one at the position `i` on. -/
def lane (n : ℕ) : ℕ → List A → List A
  | _, [] => []
  | 0, a :: l => a :: lane n (n - 1) l
  | i + 1, _ :: l => lane n i l

/-- Systems that take turns, and whose turn it is. -/
@[ext] structure Rota (S : Type*) where
  next : ℕ
  slots : List S

namespace Rota

/-- Whose turn it is after this one. -/
def advance (r : Rota S) : ℕ := if r.slots.length ≤ r.next + 1 then 0 else r.next + 1

/-- The system whose turn it is takes an action. -/
def step (f : S → A → S) (r : Rota S) (a : A) : Rota S :=
  ⟨r.advance, r.slots.modify r.next fun s => f s a⟩

/-- How many turns the system `i` has to wait for. -/
def wait (r : Rota S) (i : ℕ) : ℕ := if r.next ≤ i then i - r.next else i + r.slots.length - r.next

variable {f : S → A → S} {r : Rota S}

@[simp] theorem length_slots_step (a : A) : (r.step f a).slots.length = r.slots.length := by
  simp [step]

@[simp] theorem length_slots_run (l : List A) :
    (run (step f) r l).slots.length = r.slots.length := by
  induction l generalizing r with
  | nil => rfl
  | cons a l ih => simp [ih]

theorem advance_lt (h : r.next < r.slots.length) : r.advance < r.slots.length := by
  unfold advance
  split_ifs
  · omega
  · omega

/-- The turn after a run. -/
theorem next_run (h : r.next < r.slots.length) (l : List A) :
    (run (step f) r l).next = (r.next + l.length) % r.slots.length := by
  induction l generalizing r with
  | nil =>
    simp [Nat.mod_eq_of_lt h]
  | cons a l ih =>
    have hnext : (r.step f a).next < (r.step f a).slots.length := by
      simpa [step] using advance_lt h
    rw [run_cons, ih hnext]
    simp only [length_slots_step, List.length_cons]
    show (r.advance + l.length) % r.slots.length = _
    unfold advance
    split_ifs with hlast
    · -- it was the turn of the last system
      have hsum : r.next + (l.length + 1) = l.length + r.slots.length := by omega
      rw [hsum, Nat.add_mod_right, Nat.zero_add]
    · rw [Nat.add_assoc, Nat.add_comm 1]

/-- **A system on its own.**  After a run each system is where the actions of its lane take it. -/
theorem slots_run (h : r.next < r.slots.length) {i : ℕ} (hi : i < r.slots.length) (l : List A) :
    (run (step f) r l).slots[i]? =
      r.slots[i]?.map fun s => run f s (lane r.slots.length (r.wait i) l) := by
  induction l generalizing r with
  | nil =>
    simp [lane]
  | cons a l ih =>
    have hnext : (r.step f a).next < (r.step f a).slots.length := by
      simpa [step] using advance_lt h
    rw [run_cons, ih hnext (by simpa using hi)]
    simp only [length_slots_step]
    by_cases hturn : r.next = i
    · -- its turn: then it waits for all the others
      have hbefore : r.wait i = 0 := by
        unfold wait
        split_ifs
        · omega
        · omega
      have hafter : (r.step f a).wait i = r.slots.length - 1 := by
        unfold wait
        simp only [length_slots_step]
        show (if r.advance ≤ i then i - r.advance else i + r.slots.length - r.advance) = _
        unfold advance
        split_ifs
        · omega
        · omega
        · omega
        · omega
      rw [hbefore, hafter, lane]
      simp [step, hturn, Function.comp_def]
    · have hbefore : r.wait i = (r.step f a).wait i + 1 := by
        unfold wait
        simp only [length_slots_step]
        show _ = (if r.advance ≤ i then i - r.advance else i + r.slots.length - r.advance) + 1
        unfold advance
        split_ifs
        all_goals omega
      rw [hbefore, lane]
      simp [step, hturn]

end Rota

/-- **Fairness.**  The actions of a run are shared out evenly. -/
theorem length_lane {n i : ℕ} (hi : i < n) (l : List A) :
    (lane n i l).length = (l.length + (n - 1 - i)) / n := by
  induction l generalizing i with
  | nil =>
    rw [lane, List.length_nil, Nat.div_eq_of_lt (by omega)]
  | cons a l ih =>
    cases i with
    | zero =>
      have hsum : (a :: l).length + (n - 1 - 0) = l.length + (n - 1 - (n - 1)) + n := by
        rw [List.length_cons]
        omega
      rw [lane, List.length_cons, ih (by omega), hsum, Nat.add_div_right _ (by omega)]
    | succ i =>
      have hsum : (a :: l).length + (n - 1 - (i + 1)) = l.length + (n - 1 - i) := by
        rw [List.length_cons]
        omega
      rw [lane, ih (by omega), hsum]

/-! ## Turns that take their time

A user takes a turn, works on the system it got as it found it, and leaves what it made of it when it
is through.  Between the two others may come and go.
-/

/-- A turn that is not over: its number, the system, how it was found, and what is done to it. -/
structure Turn (S A : Type*) where
  number : ℕ
  slot : ℕ
  found : S
  action : A

/-- Systems whose turns overlap, the turns that are not over, and the results of those that are. -/
structure Shifts (S A R : Type*) where
  rota : Rota S
  taken : ℕ
  held : List (Turn S A)
  results : List (ℕ × R)

/-- A turn is taken, or is over. -/
inductive Visit (A : Type*) where
  | take (action : A)
  | leave (number : ℕ)

/-- What is done in the turns that are taken. -/
def Visit.actions : Visit A → List A
  | .take a => [a]
  | .leave _ => []

variable {R : Type*}

/-- The results of turns that are over at once. -/
def Rota.results (f : S → A → S) (g : S → A → R) (r : Rota S) (l : List A) : List R :=
  emitted (Rota.step f) (fun r a => (r.slots[r.next]?.map fun s => g s a).toList) r l

namespace Shifts

/-- One step of the users. -/
def step (f : S → A → S) (g : S → A → R) (u : Shifts S A R) : Visit A → Shifts S A R
  | .take a =>
      match u.rota.slots[u.rota.next]? with
      | none => u
      | some s => ⟨⟨u.rota.advance, u.rota.slots⟩, u.taken + 1,
          ⟨u.taken, u.rota.next, s, a⟩ :: u.held, u.results⟩
  | .leave j =>
      match u.held.find? fun t => t.number = j with
      | none => u
      | some t => ⟨⟨u.rota.next, u.rota.slots.set t.slot (f t.found t.action)⟩, u.taken,
          u.held.filter fun t => t.number ≠ j, (j, g t.found t.action) :: u.results⟩

/-- Nobody has taken a turn yet. -/
def start (r : Rota S) : Shifts S A R := ⟨r, 0, [], []⟩

/-- No two turns at one system. -/
def Exclusive (u : Shifts S A R) : Prop := (u.held.map Turn.slot).Nodup

/-- The turns that are not over when one is taken are among the last, one less than there are
systems. -/
def Recent (u : Shifts S A R) : Visit A → Prop
  | .take _ => ∀ t ∈ u.held, u.taken < t.number + u.rota.slots.length
  | .leave _ => True

instance (u : Shifts S A R) : ∀ v : Visit A, Decidable (u.Recent v)
  | .take _ => inferInstanceAs (Decidable (∀ t ∈ u.held, _))
  | .leave _ => .isTrue trivial

variable {f : S → A → S} {g : S → A → R} {r : Rota S} {u : Shifts S A R}

/-- What is known of turns that never met: a turn is at the system its number says, and no more
turns have been taken since than there are systems. -/
structure Placed (r : Rota S) (u : Shifts S A R) : Prop where
  length : u.rota.slots.length = r.slots.length
  next : u.rota.next = (r.next + u.taken) % r.slots.length
  slot : ∀ t ∈ u.held, t.slot = (r.next + t.number) % r.slots.length
  recent : ∀ t ∈ u.held, t.number < u.taken ∧ u.taken ≤ t.number + r.slots.length
  exclusive : u.Exclusive

theorem placed_start (h : r.next < r.slots.length) : Placed r (start r : Shifts S A R) where
  length := rfl
  next := (Nat.mod_eq_of_lt h).symm
  slot := by simp [start]
  recent := by simp [start]
  exclusive := List.nodup_nil

/-- A turn is at the system whose turn it is when it is one round old. -/
theorem slot_eq_iff {s a b n : ℕ} (hlt : a < b) (hle : b ≤ a + n) :
    (s + a) % n = (s + b) % n ↔ b = a + n := by
  constructor
  · intro h
    have hdvd : n ∣ b - a := by
      have hsame : s + a ≡ s + b [MOD n] := h
      exact (Nat.modEq_iff_dvd' hlt.le).1 (Nat.ModEq.add_left_cancel' s hsame)
    have hge := Nat.le_of_dvd (by omega) hdvd
    omega
  · intro h
    rw [h, ← Nat.add_assoc, Nat.add_mod_right]

/-- **Everything a user can do.** -/
theorem Placed.step_cases (hr : r.next < r.slots.length) (h : Placed r u) :
    (∀ a, ∃ s, u.rota.slots[u.rota.next]? = some s ∧
      u.step f g (.take a) = ⟨⟨u.rota.advance, u.rota.slots⟩, u.taken + 1,
        ⟨u.taken, u.rota.next, s, a⟩ :: u.held, u.results⟩) ∧
    ∀ j, u.step f g (.leave j) = u ∨
      ∃ t ∈ u.held, t.number = j ∧
        u.step f g (.leave j) = ⟨⟨u.rota.next, u.rota.slots.set t.slot (f t.found t.action)⟩,
          u.taken, u.held.filter fun t => t.number ≠ j, (j, g t.found t.action) :: u.results⟩ := by
  have hnext : u.rota.next < u.rota.slots.length := by
    rw [h.length, h.next]
    exact Nat.mod_lt _ (by omega)
  constructor
  · intro a
    have hfound := List.getElem?_eq_getElem hnext
    exact ⟨_, hfound, by simp only [step, hfound]⟩
  · intro j
    cases hfind : u.held.find? fun t => t.number = j with
    | none => exact Or.inl (by simp only [step, hfind])
    | some t =>
      have hnumber := List.find?_some hfind
      exact Or.inr ⟨t, List.mem_of_find?_eq_some hfind, by simpa using hnumber,
        by simp only [step, hfind]⟩

/-- A turn leads to the same system as one that is not over when that is a round old, and only
then. -/
theorem exclusive_step_iff (hr : r.next < r.slots.length) (h : Placed r u) (v : Visit A) :
    (u.step f g v).Exclusive ↔ u.Recent v := by
  obtain ⟨htake, hleave⟩ := h.step_cases (f := f) (g := g) hr
  cases v with
  | take a =>
    obtain ⟨s, -, heq⟩ := htake a
    have hbefore : (u.held.map Turn.slot).Nodup := h.exclusive
    rw [heq]
    show ((u.rota.next :: u.held.map Turn.slot).Nodup) ↔ ∀ t ∈ u.held, _
    rw [List.nodup_cons, and_iff_left hbefore, List.mem_map]
    simp only [not_exists, not_and]
    refine forall₂_congr fun t ht => ?_
    obtain ⟨hlt, hle⟩ := h.recent t ht
    rw [h.slot t ht, h.next, slot_eq_iff hlt hle, h.length]
    omega
  | leave j =>
    refine iff_of_true ?_ trivial
    obtain heq | ⟨t, -, -, heq⟩ := hleave j
    · rw [heq]
      exact h.exclusive
    · rw [heq]
      exact h.exclusive.sublist (List.filter_sublist.map _)

/-- A turn taken among recent ones, or over, leaves the turns where they belong. -/
theorem Placed.step (hr : r.next < r.slots.length) (h : Placed r u) {v : Visit A}
    (hv : u.Recent v) : Placed r (u.step f g v) := by
  obtain ⟨htake, hleave⟩ := h.step_cases (f := f) (g := g) hr
  have hexclusive := (exclusive_step_iff (f := f) (g := g) hr h v).2 hv
  cases v with
  | take a =>
    obtain ⟨s, -, heq⟩ := htake a
    rw [heq] at hexclusive ⊢
    have hround : u.rota.next < u.rota.slots.length := by
      rw [h.length, h.next]
      exact Nat.mod_lt _ (by omega)
    refine ⟨h.length, ?_, ?_, ?_, hexclusive⟩
    · have hmod : (r.next + (u.taken + 1)) % r.slots.length =
          (u.rota.next + 1) % r.slots.length := by
        rw [h.next, Nat.mod_add_mod, Nat.add_assoc]
      show u.rota.advance = (r.next + (u.taken + 1)) % r.slots.length
      rw [hmod, ← h.length]
      unfold Rota.advance
      split_ifs with hlast
      · rw [show u.rota.next + 1 = u.rota.slots.length by omega, Nat.mod_self]
      · rw [Nat.mod_eq_of_lt (by omega)]
    · intro t ht
      rcases List.mem_cons.1 ht with rfl | ht
      · exact h.next
      · exact h.slot t ht
    · intro t ht
      rcases List.mem_cons.1 ht with rfl | ht
      · exact ⟨Nat.lt_succ_self _, by simp; omega⟩
      · have hnew := hv t ht
        have hold := h.recent t ht
        rw [h.length] at hnew
        exact ⟨by simp; omega, by simp; omega⟩
  | leave j =>
    obtain heq | ⟨t, ht, -, heq⟩ := hleave j
    · rw [heq]
      exact h
    · rw [heq] at hexclusive ⊢
      refine ⟨by simpa using h.length, h.next, ?_, ?_, hexclusive⟩
      · intro t' ht'
        exact h.slot t' (List.mem_of_mem_filter ht')
      · intro t' ht'
        exact h.recent t' (List.mem_of_mem_filter ht')

/-- **Who meets whom.**  Turns never meet at a system in exactly the runs that take them among
recent ones. -/
theorem exclusive_iff (hr : r.next < r.slots.length) (l : List (Visit A)) :
    AllSteps (step f g) (fun u v => (u.step f g v).Exclusive) (start r) l ↔
      AllSteps (step f g) Recent (start r) l := by
  refine AllSteps.iff_of_invariant (I := Placed r) (P := fun _ _ => True) ?_ ?_ (placed_start hr)
    (AllSteps.trivial (fun _ _ => trivial) _ _)
  · intro u v hu _
    exact exclusive_step_iff hr hu v
  · intro u v hu _ hv
    exact hu.step hr ((exclusive_step_iff hr hu v).1 hv)

/-- Turns that overlap, beside the same turns taken one after the other: a system nobody has is
the same in both; one that somebody has is as it was found here, and as it will be left there. -/
structure Agrees (f : S → A → S) (g : S → A → R) (r : Rota S) (u : Shifts S A R) (l : List A) :
    Prop extends Placed r u where
  taken : u.taken = l.length
  free : ∀ i, (∀ t ∈ u.held, t.slot ≠ i) → u.rota.slots[i]? = (run (Rota.step f) r l).slots[i]?
  found : ∀ t ∈ u.held, u.rota.slots[t.slot]? = some t.found
  left : ∀ t ∈ u.held, (run (Rota.step f) r l).slots[t.slot]? = some (f t.found t.action)
  pending : ∀ t ∈ u.held, (r.results f g l)[t.number]? = some (g t.found t.action)
  results : ∀ x ∈ u.results, (r.results f g l)[x.1]? = some x.2
  all : ∀ j < u.taken, (∃ t ∈ u.held, t.number = j) ∨ ∃ x, (j, x) ∈ u.results

theorem results_append {l : List A} {s : S} {a : A}
    (h : (run (Rota.step f) r l).slots[(run (Rota.step f) r l).next]? = some s) :
    r.results f g (l ++ [a]) = r.results f g l ++ [g s a] := by
  simp [Rota.results, emitted_append, emitted, h]

theorem length_results (hr : r.next < r.slots.length) (l : List A) :
    (r.results f g l).length = l.length := by
  induction l using List.reverseRecOn with
  | nil => rfl
  | append_singleton l a ih =>
    have hnext : (run (Rota.step f) r l).next < (run (Rota.step f) r l).slots.length := by
      rw [Rota.next_run hr, Rota.length_slots_run]
      exact Nat.mod_lt _ (by omega)
    rw [results_append (List.getElem?_eq_getElem hnext), List.length_append, ih,
      List.length_append]
    rfl

theorem agrees_start (hr : r.next < r.slots.length) : Agrees f g r (start r) [] where
  toPlaced := placed_start hr
  taken := rfl
  free := fun _ _ => rfl
  found := by simp [start]
  left := by simp [start]
  pending := by simp [start]
  results := by simp [start]
  all := by simp [start]

theorem Agrees.take (hr : r.next < r.slots.length) {l : List A} (h : Agrees f g r u l) {a : A}
    (hv : u.Recent (.take a)) : Agrees f g r (u.step f g (.take a)) (l ++ [a]) := by
  have hplaced := h.toPlaced.step (f := f) (g := g) hr hv
  obtain ⟨s, hs, heq⟩ := (h.step_cases (f := f) (g := g) hr).1 a
  rw [heq] at hplaced ⊢
  have hnext : (run (Rota.step f) r l).next = u.rota.next := by
    rw [Rota.next_run hr, h.next, h.taken]
  -- nobody has the system whose turn it is
  have hfree : ∀ t ∈ u.held, t.slot ≠ u.rota.next := by
    have hnodup : (u.rota.next :: u.held.map Turn.slot).Nodup := hplaced.exclusive
    intro t ht hslot
    exact (List.nodup_cons.1 hnodup).1 (List.mem_map.2 ⟨t, ht, hslot⟩)
  have hserial : (run (Rota.step f) r l).slots[(run (Rota.step f) r l).next]? = some s := by
    rw [hnext, ← h.free _ hfree, hs]
  have hslots : (run (Rota.step f) r (l ++ [a])).slots =
      (run (Rota.step f) r l).slots.modify u.rota.next fun s => f s a := by
    rw [run_append, ← hnext]
    rfl
  have hresults := results_append (g := g) (a := a) hserial
  have hlen := length_results (f := f) (g := g) hr l
  refine ⟨hplaced, ?_, ?_, ?_, ?_, ?_, ?_, ?_⟩
  · simp [h.taken]
  · intro i hi
    have hother : u.rota.next ≠ i := hi _ List.mem_cons_self
    rw [hslots, List.getElem?_modify_ne _ _ hother]
    exact h.free i fun t ht => hi t (List.mem_cons_of_mem _ ht)
  · intro t ht
    rcases List.mem_cons.1 ht with rfl | ht
    · exact hs
    · exact h.found t ht
  · intro t ht
    rw [hslots]
    rcases List.mem_cons.1 ht with rfl | ht
    · rw [List.getElem?_modify_eq, ← hnext, hserial]
      rfl
    · rw [List.getElem?_modify_ne _ _ (hfree t ht).symm]
      exact h.left t ht
  · intro t ht
    rw [hresults]
    rcases List.mem_cons.1 ht with rfl | ht
    · show (r.results f g l ++ [g s a])[u.taken]? = some (g s a)
      rw [h.taken, ← hlen, List.getElem?_concat_length]
    · rw [List.getElem?_append_left (by have := (h.recent t ht).1; have := h.taken; omega)]
      exact h.pending t ht
  · intro x hx
    have hold := h.results x hx
    have hlt := (List.getElem?_eq_some_iff.1 hold).1
    rw [hresults, List.getElem?_append_left hlt]
    exact hold
  · intro j hj
    by_cases hnew : j = u.taken
    · exact Or.inl ⟨_, List.mem_cons_self, hnew.symm⟩
    · obtain ⟨t, ht, hnumber⟩ | hresult := h.all j (by simp at hj; omega)
      · exact Or.inl ⟨t, List.mem_cons_of_mem _ ht, hnumber⟩
      · exact Or.inr hresult

theorem Agrees.leave (hr : r.next < r.slots.length) {l : List A} (h : Agrees f g r u l) (j : ℕ) :
    Agrees f g r (u.step f g (.leave j)) l := by
  have hplaced := h.toPlaced.step (f := f) (g := g) (v := .leave j) hr trivial
  obtain heq | ⟨t, ht, rfl, heq⟩ := (h.step_cases (f := f) (g := g) hr).2 j
  · rw [heq]
    exact h
  rw [heq] at hplaced ⊢
  -- the other turns are at other systems
  have hothers : ∀ t' ∈ u.held, t'.number ≠ t.number → t.slot ≠ t'.slot := by
    intro t' ht' hne hslot
    have hsame := List.inj_on_of_nodup_map h.exclusive ht ht' hslot
    exact hne (by rw [hsame])
  have hbound : t.slot < u.rota.slots.length := (List.getElem?_eq_some_iff.1 (h.found t ht)).1
  refine ⟨hplaced, h.taken, ?_, ?_, ?_, ?_, ?_, ?_⟩
  · intro i hi
    by_cases hslot : t.slot = i
    · subst hslot
      show (u.rota.slots.set t.slot _)[t.slot]? = _
      rw [List.getElem?_set_self hbound, h.left t ht]
    · show (u.rota.slots.set t.slot _)[i]? = _
      rw [List.getElem?_set_ne hslot]
      refine h.free i fun t' ht' => ?_
      by_cases hnumber : t'.number = t.number
      · rw [h.slot t' ht', hnumber, ← h.slot t ht]
        exact hslot
      · exact hi t' (List.mem_filter.2 ⟨ht', by simpa using hnumber⟩)
  · intro t' ht'
    obtain ⟨ht', hnumber⟩ := List.mem_filter.1 ht'
    show (u.rota.slots.set t.slot _)[t'.slot]? = _
    rw [List.getElem?_set_ne (hothers t' ht' (by simpa using hnumber))]
    exact h.found t' ht'
  · intro t' ht'
    exact h.left t' (List.mem_of_mem_filter ht')
  · intro t' ht'
    exact h.pending t' (List.mem_of_mem_filter ht')
  · intro x hx
    rcases List.mem_cons.1 hx with rfl | hx
    · exact h.pending t ht
    · exact h.results x hx
  · intro j hj
    by_cases hnumber : j = t.number
    · exact Or.inr ⟨_, by rw [hnumber]; exact List.mem_cons_self⟩
    · obtain ⟨t', ht', rfl⟩ | ⟨x, hx⟩ := h.all j hj
      · exact Or.inl ⟨t', List.mem_filter.2 ⟨ht', by simpa using hnumber⟩, rfl⟩
      · exact Or.inr ⟨x, List.mem_cons_of_mem _ hx⟩

/-- **One after the other.**  Turns taken among recent ones leave the systems as they are left when
each turn is over before the next is taken, and have the same results. -/
theorem serial (hr : r.next < r.slots.length) {l : List (Visit A)}
    (hl : AllSteps (step f g) Recent (start r) l) :
    Agrees f g r (run (step f g) (start r) l) (l.flatMap Visit.actions) := by
  have hactions : ∀ (u : Shifts S A R) (as : List A) (l : List (Visit A)),
      run (fun as a => as ++ [a]) as (emitted (step f g) (fun _ v => v.actions) u l) =
        as ++ l.flatMap Visit.actions := by
    intro u as l
    induction l generalizing u as with
    | nil => simp [emitted]
    | cons v l ih =>
      rw [emitted, run_append, ih, List.flatMap_cons, ← List.append_assoc]
      cases v <;> simp [Visit.actions]
  have hstep : ∀ (u : Shifts S A R) (as : List A) v, Agrees f g r u as → u.Recent v →
      Agrees f g r (u.step f g v) (run (fun as a => as ++ [a]) as v.actions) := by
    intro u as v hu hv
    cases v with
    | take a => exact hu.take hr hv
    | leave j => exact hu.leave hr j
  have hsim := run_simulation hstep (agrees_start hr) hl
  rwa [hactions, List.nil_append] at hsim

end Shifts

end Library
