import Mathlib

/-!
# Tables with a primary key

A small library about tables whose rows carry their own primary key.  A
`KeyedTable key` keeps its rows in strictly increasing key order, and the order
is a field of the structure: a table with two rows under one key, or with rows
out of order, cannot be built.  It names nothing of the program that uses it.

* `get`, `put`, `delete`, `update`, `upsert` — the point operations, with their
  laws `get_put`, `get_delete`, `get_update`, `get_upsert`.
* `mem_rows_iff` — scanning the rows and looking up a key see the same table.
* `sumOf` — the total of a quantity over all rows, with the exact effect of a
  write on it (`sumOf_put`, `sumOf_delete`).  Counting rows is the case of a
  quantity that is `0` or `1`.
* `length_foldl_delete` — how many rows the removal of a list of keys takes away.
* `scanAsc` — the rows in the order of a secondary, non-unique index.
* `mem_argmin_rows` — the row in which a quantity is least, the first of them.
* `filter` — the rows that pass a test, with what looking up and scanning make of it
  (`get_filter`, `scanAsc_filter`).
-/

namespace Library

variable {κ τ : Type*} [LinearOrder κ]

/-- A table of rows of type `τ` in strictly increasing order of their key. -/
structure KeyedTable (key : τ → κ) where
  /-- The rows, in the order a scan of the primary index returns them. -/
  rows : List τ
  /-- Keys strictly increase along the rows, so no key occurs twice. -/
  sorted : rows.Pairwise fun r r' => key r < key r'

namespace KeyedTable

variable {key : τ → κ}

/-! ## Insertion into a sorted list of rows -/

/-- Put a row in its place, replacing the row that has its key. -/
def putRow (key : τ → κ) (r : τ) : List τ → List τ
  | [] => [r]
  | x :: xs =>
      if key r < key x then r :: x :: xs
      else if key r = key x then r :: xs
      else x :: putRow key r xs

theorem mem_putRow {r r' : τ} {l : List τ} (h : r' ∈ putRow key r l) : r' = r ∨ r' ∈ l := by
  induction l with
  | nil => simpa [putRow] using h
  | cons x xs ih =>
    rw [putRow] at h
    split_ifs at h with hlt heq
    · simpa using h
    · rcases List.mem_cons.1 h with h | h
      · exact Or.inl h
      · exact Or.inr (List.mem_cons_of_mem _ h)
    · rcases List.mem_cons.1 h with h | h
      · exact Or.inr (by simp [h])
      · rcases ih h with h | h
        · exact Or.inl h
        · exact Or.inr (List.mem_cons_of_mem _ h)

theorem sorted_putRow (r : τ) {l : List τ} (h : l.Pairwise fun r r' => key r < key r') :
    (putRow key r l).Pairwise fun r r' => key r < key r' := by
  induction l with
  | nil => simp [putRow]
  | cons x xs ih =>
    obtain ⟨hx, hxs⟩ := List.pairwise_cons.1 h
    rw [putRow]
    split_ifs with hlt heq
    · refine List.pairwise_cons.2 ⟨fun y hy => ?_, h⟩
      rcases List.mem_cons.1 hy with rfl | hy
      · exact hlt
      · exact hlt.trans (hx y hy)
    · exact List.pairwise_cons.2 ⟨fun y hy => heq ▸ hx y hy, hxs⟩
    · refine List.pairwise_cons.2 ⟨fun y hy => ?_, ih hxs⟩
      rcases mem_putRow hy with rfl | hy
      · exact lt_of_le_of_ne (not_lt.1 hlt) (Ne.symm heq)
      · exact hx y hy

/-! ## The operations -/

/-- The table without rows. -/
def empty : KeyedTable key := ⟨[], List.Pairwise.nil⟩

/-- The row stored under a key. -/
def get (t : KeyedTable key) (k : κ) : Option τ := t.rows.find? fun r => decide (key r = k)

/-- Store a row, replacing the one that has its key. -/
def put (t : KeyedTable key) (r : τ) : KeyedTable key :=
  ⟨putRow key r t.rows, sorted_putRow r t.sorted⟩

/-- Remove the row stored under a key, if there is one. -/
def delete (t : KeyedTable key) (k : κ) : KeyedTable key :=
  ⟨t.rows.filter fun r => decide (key r ≠ k), t.sorted.filter _⟩

/-- Apply `f` to the row stored under a key, if there is one. -/
def update (t : KeyedTable key) (k : κ) (f : τ → τ) : KeyedTable key :=
  match t.get k with
  | none => t
  | some r => t.put (f r)

/-- Apply `f` to the row stored under the key of `r`, or store `r` if there is none. -/
def upsert (t : KeyedTable key) (r : τ) (f : τ → τ) : KeyedTable key :=
  match t.get (key r) with
  | none => t.put r
  | some r' => t.put (f r')

/-- The rows that pass a test. -/
def filter (t : KeyedTable key) (p : τ → Bool) : KeyedTable key :=
  ⟨t.rows.filter p, t.sorted.filter _⟩

/-- The total of a quantity over all rows. -/
def sumOf {M : Type*} [AddCommMonoid M] (t : KeyedTable key) (f : τ → M) : M :=
  (t.rows.map f).sum

/-- The rows in increasing order of a secondary index, rows that agree in it in
increasing order of their primary key. -/
def scanAsc (t : KeyedTable key) (index : τ → ℕ) : List τ :=
  t.rows.insertionSort fun r r' => index r ≤ index r'

/-! ## Looking up -/

theorem key_of_get {t : KeyedTable key} {k : κ} {r : τ} (h : t.get k = some r) : key r = k := by
  simpa using List.find?_some h

theorem mem_of_get {t : KeyedTable key} {k : κ} {r : τ} (h : t.get k = some r) : r ∈ t.rows :=
  List.mem_of_find?_eq_some h

/-- In sorted rows a key determines its row. -/
theorem eq_of_mem_of_key {l : List τ} (hl : l.Pairwise fun r r' => key r < key r') {r r' : τ}
    (hr : r ∈ l) (hr' : r' ∈ l) (h : key r = key r') : r = r' := by
  induction l with
  | nil => simp at hr
  | cons x xs ih =>
    obtain ⟨hx, hxs⟩ := List.pairwise_cons.1 hl
    rcases List.mem_cons.1 hr with hrx | hrt <;> rcases List.mem_cons.1 hr' with hrx' | hrt'
    · rw [hrx, hrx']
    · exact absurd (hrx ▸ h) (hx r' hrt').ne
    · exact absurd (hrx' ▸ h) (hx r hrt).ne'
    · exact ih hxs hrt hrt'

theorem get_eq_none_iff {t : KeyedTable key} {k : κ} :
    t.get k = none ↔ ∀ r ∈ t.rows, key r ≠ k := by
  simp [get]

/-- A row is in the table exactly when looking up its key finds it. -/
theorem mem_rows_iff {t : KeyedTable key} {r : τ} : r ∈ t.rows ↔ t.get (key r) = some r := by
  constructor
  · intro h
    cases hg : t.get (key r) with
    | none => exact absurd rfl (get_eq_none_iff.1 hg r h)
    | some r' => rw [eq_of_mem_of_key t.sorted (mem_of_get hg) h (key_of_get hg)]
  · exact mem_of_get

@[simp] theorem get_empty (k : κ) : (empty : KeyedTable key).get k = none := rfl

theorem find_putRow (r : τ) (k : κ) [Decidable (k = key r)] {l : List τ}
    (hl : l.Pairwise fun r r' => key r < key r') :
    (putRow key r l).find? (fun x => decide (key x = k)) =
      if k = key r then some r else l.find? fun x => decide (key x = k) := by
  induction l with
  | nil =>
    by_cases h : k = key r
    · simp [putRow, h]
    · simp [putRow, h, Ne.symm h]
  | cons x xs ih =>
    obtain ⟨hx, hxs⟩ := List.pairwise_cons.1 hl
    by_cases h : k = key r
    · subst h
      rw [putRow, if_pos rfl]
      split_ifs with hlt heq
      · exact List.find?_cons_of_pos (by simp)
      · exact List.find?_cons_of_pos (by simp)
      · rw [List.find?_cons_of_neg (by simpa using Ne.symm heq), ih hxs, if_pos rfl]
    · have hr : key r ≠ k := Ne.symm h
      rw [putRow, if_neg h]
      split_ifs with hlt heq
      · exact List.find?_cons_of_neg (by simpa using hr)
      · rw [List.find?_cons_of_neg (by simpa using hr),
          List.find?_cons_of_neg (by simpa [← heq] using hr)]
      · by_cases hxk : key x = k
        · rw [List.find?_cons_of_pos (by simpa using hxk),
            List.find?_cons_of_pos (by simpa using hxk)]
        · rw [List.find?_cons_of_neg (by simpa using hxk), ih hxs, if_neg h,
            List.find?_cons_of_neg (by simpa using hxk)]

/-- After a write, the written key holds the written row and every other key
what it held before. -/
@[simp, grind =] theorem get_put (t : KeyedTable key) (r : τ) (k : κ)
    [Decidable (k = key r)] :
    (t.put r).get k = if k = key r then some r else t.get k :=
  find_putRow r k t.sorted

/-- After a removal, the removed key holds nothing and every other key what it
held before. -/
@[simp, grind =] theorem get_delete (t : KeyedTable key) (k k' : κ)
    [Decidable (k' = k)] :
    (t.delete k).get k' = if k' = k then none else t.get k' := by
  rw [get, delete, List.find?_filter]
  split_ifs with h
  · subst h
    exact List.find?_eq_none.2 fun r _ => by simp
  · refine List.find?_congr fun r _ => ?_
    by_cases hr : key r = k'
    · simp [hr, h]
    · simp [hr]

theorem get_update {t : KeyedTable key} {f : τ → τ} (hf : ∀ r, key (f r) = key r) (k k' : κ)
    [Decidable (k' = k)] :
    (t.update k f).get k' = if k' = k then (t.get k).map f else t.get k' := by
  rw [update]
  cases hg : t.get k with
  | none =>
    split_ifs with h
    · rw [h, hg]; rfl
    · rfl
  | some r =>
    show (t.put (f r)).get k' = _
    rw [get_put, hf]
    simp only [key_of_get hg, Option.map_some]

theorem get_upsert {t : KeyedTable key} {f : τ → τ} (hf : ∀ r, key (f r) = key r) (r : τ) (k : κ)
    [Decidable (k = key r)] :
    (t.upsert r f).get k =
      if k = key r then some (((t.get (key r)).map f).getD r) else t.get k := by
  rw [upsert]
  cases hg : t.get (key r) with
  | none => exact get_put t r k
  | some r' =>
    show (t.put (f r')).get k = _
    rw [get_put, hf]
    simp only [key_of_get hg, Option.map_some, Option.getD_some]

/-- A write removes no row. -/
theorem isSome_get_put (t : KeyedTable key) (r : τ) {k : κ} (h : (t.get k).isSome) :
    ((t.put r).get k).isSome := by
  classical
  rw [get_put]
  split_ifs
  · rfl
  · exact h

/-- An update removes no row. -/
theorem isSome_get_update (t : KeyedTable key) (k' : κ) (f : τ → τ) {k : κ}
    (h : (t.get k).isSome) : ((t.update k' f).get k).isSome := by
  rw [update]
  cases t.get k' with
  | none => exact h
  | some r => exact isSome_get_put t (f r) h

/-- Two tables that answer every lookup alike are the same table. -/
theorem ext_get {t t' : KeyedTable key} (h : ∀ k, t.get k = t'.get k) : t = t' := by
  have : Std.Irrefl fun r r' : τ => key r < key r' := ⟨fun r => lt_irrefl (key r)⟩
  have : Std.Antisymm fun r r' : τ => key r < key r' :=
    ⟨fun r r' h h' => absurd h' h.not_gt⟩
  have hrows : t.rows = t'.rows := by
    refine List.Subset.antisymm_of_pairwise t.sorted t'.sorted ?_ ?_
    · intro r hr
      rw [mem_rows_iff, ← h]
      exact mem_rows_iff.1 hr
    · intro r hr
      rw [mem_rows_iff, h]
      exact mem_rows_iff.1 hr
  cases t
  cases t'
  subst hrows
  rfl

/-- An update leaves the table alone exactly when it finds nothing, or finds a
row it does not change. -/
theorem update_eq_self_iff {t : KeyedTable key} {k : κ} {f : τ → τ}
    (hf : ∀ r, key (f r) = key r) :
    t.update k f = t ↔ ∀ r, t.get k = some r → f r = r := by
  constructor
  · intro h r hr
    have hget : (t.update k f).get k = t.get k := by rw [h]
    rw [get_update hf, if_pos rfl, hr, Option.map_some] at hget
    exact Option.some.inj hget
  · intro h
    refine ext_get fun k' => ?_
    rw [get_update hf]
    split_ifs with hk
    · rw [hk]
      cases hg : t.get k with
      | none => rfl
      | some r => rw [Option.map_some, h r hg]
    · rfl

theorem upsert_of_get_none {t : KeyedTable key} {r : τ} {f : τ → τ} (h : t.get (key r) = none) :
    t.upsert r f = t.put r := by
  rw [upsert, h]

/-! ## Rows that pass a test -/

theorem find_filter (p : τ → Bool) (k : κ) {l : List τ}
    (hl : l.Pairwise fun r r' => key r < key r') :
    (l.filter p).find? (fun r => decide (key r = k)) =
      (l.find? fun r => decide (key r = k)).filter p := by
  induction l with
  | nil => rfl
  | cons x xs ih =>
    obtain ⟨hx, hxs⟩ := List.pairwise_cons.1 hl
    by_cases hk : key x = k
    · rw [List.find?_cons_of_pos (by simpa using hk)]
      by_cases hp : p x = true
      · rw [List.filter_cons_of_pos hp, List.find?_cons_of_pos (by simpa using hk),
          Option.filter_some, if_pos hp]
      · -- no other row has the key of the row that is left out
        rw [List.filter_cons_of_neg hp, ih hxs]
        have hnone : xs.find? (fun r => decide (key r = k)) = none := by
          rw [List.find?_eq_none]
          intro y hy
          simpa [← hk] using (hx y hy).ne'
        rw [hnone, Option.filter_some, if_neg hp]
        rfl
    · rw [List.find?_cons_of_neg (by simpa using hk)]
      by_cases hp : p x = true
      · rw [List.filter_cons_of_pos hp, List.find?_cons_of_neg (by simpa using hk), ih hxs]
      · rw [List.filter_cons_of_neg hp, ih hxs]

/-- Looking up among the rows that pass a test. -/
@[simp] theorem get_filter (t : KeyedTable key) (p : τ → Bool) (k : κ) :
    (t.filter p).get k = (t.get k).filter p :=
  find_filter p k t.sorted

theorem filter_filter (t : KeyedTable key) (p q : τ → Bool) :
    (t.filter p).filter q = t.filter fun r => q r && p r := by
  unfold filter
  simp only [List.filter_filter]

theorem filter_congr {t : KeyedTable key} {p q : τ → Bool} (h : ∀ r ∈ t.rows, p r = q r) :
    t.filter p = t.filter q := by
  unfold filter
  simp only [List.filter_congr h]

/-- A test that every row passes leaves the table as it is. -/
theorem filter_eq_self {t : KeyedTable key} {p : τ → Bool} (h : ∀ r ∈ t.rows, p r = true) :
    t.filter p = t := by
  unfold filter
  simp only [List.filter_eq_self.2 h]

/-- Deleting the keys of a list one by one leaves the rows of the other keys. -/
theorem foldl_delete (t : KeyedTable key) (ks : List κ) :
    ks.foldl delete t = t.filter fun r => decide (key r ∉ ks) := by
  induction ks generalizing t with
  | nil => exact (filter_eq_self fun r _ => by simp).symm
  | cons k ks ih =>
    rw [List.foldl_cons, ih]
    refine ext_get fun k' => ?_
    rw [get_filter, get_filter, get_delete]
    cases hget : t.get k' with
    | none => simp
    | some r =>
      have hr : key r = k' := key_of_get hget
      by_cases hk : k' = k
      · simp [Option.filter_some, hk, hr]
      · simp [Option.filter_some, hk, hr]

theorem filter_orderedInsert (index : τ → ℕ) (p : τ → Bool) (r : τ) {l : List τ}
    (hl : l.Pairwise fun r r' => index r ≤ index r') :
    (l.orderedInsert (fun r r' => index r ≤ index r') r).filter p =
      if p r then (l.filter p).orderedInsert (fun r r' => index r ≤ index r') r
      else l.filter p := by
  induction l with
  | nil => by_cases hp : p r <;> simp [hp]
  | cons x xs ih =>
    obtain ⟨hx, hxs⟩ := List.pairwise_cons.1 hl
    rw [List.orderedInsert_cons]
    by_cases hr : index r ≤ index x
    · rw [if_pos hr]
      by_cases hp : p r = true
      · -- `r` stays in front of every row it was in front of
        have hfront : ∀ y ∈ (x :: xs).filter p, index r ≤ index y := by
          intro y hy
          rcases List.mem_cons.1 (List.mem_of_mem_filter hy) with rfl | hy
          · exact hr
          · exact hr.trans (hx y hy)
        rw [List.filter_cons_of_pos hp, if_pos hp]
        cases hxs' : (x :: xs).filter p with
        | nil => rfl
        | cons y ys =>
          rw [hxs'] at hfront
          rw [List.orderedInsert_cons, if_pos (hfront y (List.mem_cons_self ..))]
      · rw [List.filter_cons_of_neg hp, if_neg hp]
    · rw [if_neg hr]
      by_cases hpx : p x = true
      · rw [List.filter_cons_of_pos hpx, List.filter_cons_of_pos hpx, ih hxs]
        by_cases hp : p r = true
        · rw [if_pos hp, if_pos hp, List.orderedInsert_cons, if_neg hr]
        · rw [if_neg hp, if_neg hp]
      · rw [List.filter_cons_of_neg hpx, List.filter_cons_of_neg hpx, ih hxs]

/-- A scan of the rows that pass a test is the scan with the others left out. -/
theorem scanAsc_filter (t : KeyedTable key) (index : τ → ℕ) (p : τ → Bool) :
    (t.filter p).scanAsc index = (t.scanAsc index).filter p := by
  have htrans : IsTrans τ fun r r' => index r ≤ index r' := ⟨fun _ _ _ => le_trans⟩
  have htotal : Std.Total fun r r' : τ => index r ≤ index r' := ⟨fun _ _ => le_total _ _⟩
  show (t.rows.filter p).insertionSort _ = _
  unfold scanAsc
  induction t.rows with
  | nil => rfl
  | cons x xs ih =>
    rw [List.insertionSort_cons,
      filter_orderedInsert index p x (List.pairwise_insertionSort _ xs), ← ih]
    by_cases hp : p x = true
    · rw [List.filter_cons_of_pos hp, List.insertionSort_cons, if_pos hp]
    · rw [List.filter_cons_of_neg hp, if_neg hp]

theorem mem_scanAsc {t : KeyedTable key} {index : τ → ℕ} {r : τ} :
    r ∈ t.scanAsc index ↔ r ∈ t.rows :=
  List.mem_insertionSort _

/-- A scan meets no key twice. -/
theorem nodup_map_key_scanAsc (t : KeyedTable key) (index : τ → ℕ) :
    ((t.scanAsc index).map key).Nodup := by
  have hrows : (t.rows.map key).Nodup :=
    List.pairwise_map.2 (t.sorted.imp fun h => h.ne)
  exact ((List.perm_insertionSort _ t.rows).map key).nodup_iff.2 hrows

/-! ## The least row -/

/-- Rows stand in the order of their keys. -/
theorem key_le_of_idxOf_le [DecidableEq τ] {t : KeyedTable key} {r r' : τ} (hr : r ∈ t.rows)
    (hr' : r' ∈ t.rows) (h : t.rows.idxOf r ≤ t.rows.idxOf r') : key r ≤ key r' := by
  rcases h.eq_or_lt with heq | hlt
  · rw [(List.idxOf_inj hr).1 heq]
  · have hsorted := List.pairwise_iff_getElem.1 t.sorted _ _ (List.idxOf_lt_length_of_mem hr)
      (List.idxOf_lt_length_of_mem hr') hlt
    rw [List.getElem_idxOf, List.getElem_idxOf] at hsorted
    exact hsorted.le

/-- The first of the rows with the least `f`. -/
theorem mem_argmin_rows [DecidableEq τ] {t : KeyedTable key} {f : τ → ℕ} {m : τ} :
    m ∈ t.rows.argmin f ↔
      m ∈ t.rows ∧ ∀ r ∈ t.rows, f m ≤ f r ∧ (f r = f m → key m ≤ key r) := by
  constructor
  · intro hm
    refine ⟨List.argmin_mem hm, fun r hr => ⟨List.le_of_mem_argmin hr hm, fun heq => ?_⟩⟩
    exact key_le_of_idxOf_le (List.argmin_mem hm) hr (List.index_of_argmin hm hr heq.le)
  · rintro ⟨hm, hleast⟩
    cases hn : t.rows.argmin f with
    | none =>
      rw [List.argmin_eq_none] at hn
      rw [hn] at hm
      cases hm
    | some n =>
      -- both are least, and each is the first of the two
      have hnmem := List.argmin_mem hn
      have hle := List.le_of_mem_argmin hm hn
      have hge := (hleast n hnmem).1
      have hfirst := key_le_of_idxOf_le hnmem hm (List.index_of_argmin hn hm hge)
      have hkey := le_antisymm ((hleast n hnmem).2 (le_antisymm hle hge)) hfirst
      rw [eq_of_mem_of_key t.sorted hm hnmem hkey]
      rfl

/-! ## Totals over the rows -/

section Sum

variable {M : Type*} [AddCommMonoid M]

theorem sum_putRow (f : τ → M) (r : τ) {l : List τ}
    (hl : l.Pairwise fun r r' => key r < key r') :
    ((putRow key r l).map f).sum + ((l.find? fun x => decide (key x = key r)).elim 0 f) =
      (l.map f).sum + f r := by
  induction l with
  | nil => simp [putRow, add_comm]
  | cons x xs ih =>
    obtain ⟨hx, hxs⟩ := List.pairwise_cons.1 hl
    rw [putRow]
    split_ifs with hlt heq
    · -- the key of `r` is below every key of the list, so nothing was stored under it
      have hnone : (x :: xs).find? (fun y => decide (key y = key r)) = none := by
        rw [List.find?_eq_none]
        intro y hy
        rcases List.mem_cons.1 hy with rfl | hy
        · simpa using hlt.ne'
        · simpa using (hlt.trans (hx y hy)).ne'
      rw [hnone]
      simp [add_comm]
    · rw [List.find?_cons_of_pos (by simp [heq])]
      simp only [List.map_cons, List.sum_cons, Option.elim_some]
      rw [add_comm, add_comm (f r), add_assoc]
    · rw [List.find?_cons_of_neg (by simpa using Ne.symm heq)]
      simp only [List.map_cons, List.sum_cons]
      rw [add_assoc, ih hxs, add_assoc]

/-- A write changes a total by the contribution of the written row, less that of
the row it replaces. -/
theorem sumOf_put (t : KeyedTable key) (f : τ → M) (r : τ) :
    (t.put r).sumOf f + (t.get (key r)).elim 0 f = t.sumOf f + f r :=
  sum_putRow f r t.sorted

theorem length_eq_sumOf (t : KeyedTable key) : t.rows.length = t.sumOf fun _ => 1 := by
  simp [sumOf]

/-- A write adds a row, or replaces one. -/
theorem length_put (t : KeyedTable key) (r : τ) :
    (t.put r).rows.length + (t.get (key r)).elim 0 (fun _ => 1) = t.rows.length + 1 := by
  rw [length_eq_sumOf, length_eq_sumOf]
  exact sumOf_put t (fun _ => 1) r

/-- An upsert that finds its row replaces it. -/
theorem length_upsert {t : KeyedTable key} {f : τ → τ} (hf : ∀ r, key (f r) = key r) {r : τ}
    (h : (t.get (key r)).isSome) : (t.upsert r f).rows.length = t.rows.length := by
  obtain ⟨r', hr'⟩ := Option.isSome_iff_exists.1 h
  have hput := length_put t (f r')
  rw [hf, key_of_get hr', hr', Option.elim_some] at hput
  rw [upsert, hr']
  exact Nat.add_right_cancel hput

/-- An update changes a total by what it changes in the row it finds. -/
theorem sumOf_update (t : KeyedTable key) (g : τ → M) {f : τ → τ}
    (hf : ∀ r, key (f r) = key r) (k : κ) :
    (t.update k f).sumOf g + (t.get k).elim 0 g =
      t.sumOf g + (t.get k).elim 0 fun r => g (f r) := by
  rw [update]
  cases hg : t.get k with
  | none => rfl
  | some r =>
    have hput := sumOf_put t g (f r)
    rw [hf, key_of_get hg, hg] at hput
    exact hput

theorem sum_filter_key (f : τ → M) (k : κ) {l : List τ}
    (hl : l.Pairwise fun r r' => key r < key r') :
    ((l.filter fun x => decide (key x ≠ k)).map f).sum +
      ((l.find? fun x => decide (key x = k)).elim 0 f) = (l.map f).sum := by
  induction l with
  | nil => simp
  | cons x xs ih =>
    obtain ⟨hx, hxs⟩ := List.pairwise_cons.1 hl
    by_cases hk : key x = k
    · have hfil : xs.filter (fun y => decide (key y ≠ k)) = xs := by
        rw [List.filter_eq_self]
        intro y hy
        simpa [← hk] using (hx y hy).ne'
      rw [List.filter_cons_of_neg (by simpa using hk), List.find?_cons_of_pos (by simpa using hk),
        hfil]
      simp [add_comm]
    · rw [List.filter_cons_of_pos (by simpa using hk), List.find?_cons_of_neg (by simpa using hk)]
      simp only [List.map_cons, List.sum_cons]
      rw [add_assoc, ih hxs]

/-- A removal takes the contribution of the removed row out of a total. -/
theorem sumOf_delete (t : KeyedTable key) (f : τ → M) (k : κ) :
    (t.delete k).sumOf f + (t.get k).elim 0 f = t.sumOf f :=
  sum_filter_key f k t.sorted

/-- Deleting keys that are there, each once, takes away as many rows. -/
theorem length_foldl_delete {t : KeyedTable key} {ks : List κ} (hnodup : ks.Nodup)
    (hmem : ∀ k ∈ ks, (t.get k).isSome) :
    (ks.foldl delete t).rows.length + ks.length = t.rows.length := by
  classical
  induction ks generalizing t with
  | nil => rfl
  | cons k ks ih =>
    obtain ⟨hk, hks⟩ := List.nodup_cons.1 hnodup
    obtain ⟨r, hr⟩ := Option.isSome_iff_exists.1 (hmem k List.mem_cons_self)
    have hone : (t.delete k).rows.length + 1 = t.rows.length := by
      have hdel := sumOf_delete t (fun _ => 1) k
      rwa [← length_eq_sumOf, ← length_eq_sumOf, hr, Option.elim_some] at hdel
    have hrest : ∀ k' ∈ ks, ((t.delete k).get k').isSome := by
      intro k' hk'
      have hne : k' ≠ k := fun heq => hk (heq ▸ hk')
      rw [get_delete, if_neg hne]
      exact hmem k' (List.mem_cons_of_mem k hk')
    have htail := ih hks hrest
    rw [List.foldl_cons, List.length_cons]
    omega

/-- A total depends on the quantity at the stored rows only. -/
theorem sumOf_congr {t : KeyedTable key} {f g : τ → M} (h : ∀ r ∈ t.rows, f r = g r) :
    t.sumOf f = t.sumOf g := by
  rw [sumOf, sumOf, List.map_congr_left h]

@[simp] theorem sumOf_empty (f : τ → M) : (empty : KeyedTable key).sumOf f = 0 := rfl

end Sum

end KeyedTable

end Library
