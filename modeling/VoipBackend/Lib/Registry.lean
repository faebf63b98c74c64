import Mathlib

/-!
# Tables that only grow

A library about a table of entries in which a registration is looked up, and gets an entry of its own
at the end if none is found.  What is found need not be what the registration would get: its key may
not fit into an entry.  Nothing here depends on the program it is used for.

* `find?_addAll` — whoever looks an entry up finds the one of the first registration that fits.
* `addAll_again` — registrations that have been made add nothing, but for those whose entries are
  never found.
-/

namespace Library

namespace Registry

variable {A E : Type*} (found : A → E → Bool) (make : A → E)

/-- The table after a registration. -/
def add (table : List E) (a : A) : List E :=
  if table.any (found a) then table else table ++ [make a]

/-- The table after registrations. -/
def addAll (table : List E) (as : List A) : List E := as.foldl (add found make) table

variable {found make}

theorem addAll_append (table : List E) (as bs : List A) :
    addAll found make table (as ++ bs) = addAll found make (addAll found make table as) bs :=
  List.foldl_append

theorem addAll_concat (table : List E) (as : List A) (a : A) :
    addAll found make table (as ++ [a]) = add found make (addAll found make table as) a :=
  addAll_append table as [a]

/-- The entries that are there stay where they are. -/
theorem add_starts (table : List E) (a : A) : table <+: add found make table a := by
  unfold add
  split_ifs
  · exact List.prefix_refl table
  · exact List.prefix_append table [make a]

theorem addAll_starts (table : List E) (as : List A) : table <+: addAll found make table as := by
  induction as generalizing table with
  | nil => exact List.prefix_refl table
  | cons a as ih => exact (add_starts table a).trans (ih (add found make table a))

/-- Every entry is that of a registration. -/
theorem mem_addAll {table : List E} (htable : ∀ e ∈ table, ∃ a, make a = e) (as : List A) :
    ∀ e ∈ addAll found make table as, ∃ a, make a = e := by
  induction as generalizing table with
  | nil => exact htable
  | cons a as ih =>
    apply ih
    intro e he
    unfold add at he
    split_ifs at he
    · exact htable e he
    · rcases List.mem_append.1 he with he | he
      · exact htable e he
      · exact ⟨a, (List.mem_singleton.1 he).symm⟩

/-- **The first registration counts.**  If what is found for a registration is looked up by everything
its own entry is looked up by, then the table is as good as all the entries. -/
theorem find?_addAll {p : E → Bool}
    (hp : ∀ a b, found a (make b) = true → p (make a) = true → p (make b) = true) (as : List A) :
    (addAll found make [] as).find? p = (as.map make).find? p := by
  induction as using List.reverseRecOn with
  | nil => rfl
  | append_singleton as a ih =>
    have hmade : ∀ e ∈ addAll found make [] as, ∃ b, make b = e := mem_addAll (by simp) as
    rw [addAll_concat, List.map_append, List.find?_append, ← ih, add]
    split_ifs with hany
    · obtain ⟨e, he, hfound⟩ := List.any_eq_true.1 hany
      obtain ⟨b, rfl⟩ := hmade e he
      by_cases hlookup : p (make a) = true
      · obtain ⟨e, hfirst⟩ : ∃ e, (addAll found make [] as).find? p = some e := by
          rw [← Option.isSome_iff_exists, List.find?_isSome]
          exact ⟨_, he, hp a b hfound hlookup⟩
        rw [hfirst]
        rfl
      · have hnone : (List.map make [a]).find? p = none := by simpa using hlookup
        rw [hnone, Option.or_none]
    · rw [List.find?_append]
      rfl

/-! ## The same registrations again -/

/-- Registrations each of which is found, or is lost: its entry is not found, nor is any other. -/
theorem addAll_of_found {lost : A → Bool} (hlost : ∀ a b, lost a = true → found a (make b) = false)
    {table : List E} (htable : ∀ e ∈ table, ∃ a, make a = e) {as : List A}
    (has : ∀ a ∈ as, lost a = true ∨ table.any (found a) = true) :
    addAll found make table as = table ++ (as.filter lost).map make := by
  induction as using List.reverseRecOn with
  | nil => exact (List.append_nil table).symm
  | append_singleton as a ih =>
    have hrest : ∀ b ∈ as, lost b = true ∨ table.any (found b) = true := fun b hb =>
      has b (List.mem_append_left _ hb)
    have hmade : ∀ e ∈ addAll found make table as, ∃ b, make b = e := mem_addAll htable as
    have ha := has a (by simp)
    rw [addAll_concat, List.filter_append, List.map_append, ← List.append_assoc]
    by_cases hgone : lost a = true
    · have hnone : ¬ (addAll found make table as).any (found a) = true := by
        intro hany
        obtain ⟨e, he, hfound⟩ := List.any_eq_true.1 hany
        obtain ⟨b, rfl⟩ := hmade e he
        rw [hlost a b hgone] at hfound
        cases hfound
      rw [add, if_neg hnone, ih hrest, List.filter_singleton, hgone]
      rfl
    · obtain ⟨e, he, hfound⟩ := List.any_eq_true.1 (ha.resolve_left hgone)
      have hany : (addAll found make table as).any (found a) = true :=
        List.any_eq_true.2 ⟨e, (addAll_starts table as).subset he, hfound⟩
      rw [add, if_pos hany, ih hrest, List.filter_singleton, eq_false_of_ne_true hgone]
      simp

/-- After a registration that is not lost, it is found. -/
theorem any_addAll {lost : A → Bool} (hkept : ∀ a, lost a = false → found a (make a) = true)
    (table : List E) {as : List A} {a : A} (ha : a ∈ as) :
    lost a = true ∨ (addAll found make table as).any (found a) = true := by
  by_cases hgone : lost a = true
  · exact Or.inl hgone
  obtain ⟨before, after, rfl⟩ := List.append_of_mem ha
  have hadded : (add found make (addAll found make table before) a).any (found a) = true := by
    unfold add
    split_ifs with hany
    · exact hany
    · simp [hkept a (eq_false_of_ne_true hgone)]
  have hstays : add found make (addAll found make table before) a <+:
      addAll found make table (before ++ a :: after) := by
    rw [addAll_append]
    exact addAll_starts _ after
  obtain ⟨e, he, hfound⟩ := List.any_eq_true.1 hadded
  exact Or.inr (List.any_eq_true.2 ⟨e, hstays.subset he, hfound⟩)

/-- **The same again**, so many times: the lost ones get another entry each time, and nothing else
does. -/
theorem addAll_again {lost : A → Bool} (hlost : ∀ a b, lost a = true → found a (make b) = false)
    (hkept : ∀ a, lost a = false → found a (make a) = true) {table : List E}
    (htable : ∀ e ∈ table, ∃ a, make a = e) (as : List A) (k : ℕ) :
    addAll found make (addAll found make table as) (List.replicate k as).flatten =
      addAll found make table as ++ ((List.replicate k as).flatten.filter lost).map make := by
  apply addAll_of_found hlost (mem_addAll htable as)
  intro a ha
  obtain ⟨bs, hbs, ha⟩ := List.mem_flatten.1 ha
  rw [List.eq_of_mem_replicate hbs] at ha
  exact any_addAll hkept table ha

end Registry

end Library
