import VoipBackend.Backend.TtlWorker

/-!
# What a sweep leaves

A sweep that no other fiber interrupts removes exactly the tuples whose `expires_at`
is not after the time of the sweep, however many batches that takes: in each of the
three spaces the live tuples stay as they were (`drainSpace_eq`), and no other space is
touched (`sweep_eq`).
-/

namespace VoipBackend

open Library

/-- A space with the tuples left out that have expired by `now`. -/
def Box.keepLive (b : Box) (now : ℕ) : DrainedSpace → Box
  | .rtpeCalls =>
      { b with rtpeCalls := b.rtpeCalls.filter fun c => decide (now < c.expiresAt) }
  | .kamDialogs =>
      { b with kamDialogs := b.kamDialogs.filter fun d => decide (now < d.expiresAt) }
  | .kamUsrloc =>
      { b with kamUsrloc := b.kamUsrloc.filter fun u => decide (now < u.expiresAt) }

/-! ## One batch -/

section Batch

variable {τ : Type} {key : τ → LuaString} {t : KeyedTable key} {expiresAt : τ → ℕ} {now : ℕ}

/-- Only keys of expired rows are collected. -/
theorem expired_of_mem_batchOf {k : LuaString} (h : k ∈ batchOf t expiresAt now) :
    ∃ r ∈ t.rows, key r = k ∧ expiresAt r ≤ now := by
  obtain ⟨r, hr, hk⟩ := List.mem_map.1 h
  have hfilter := List.mem_filter.1 (List.mem_of_mem_take hr)
  refine ⟨r, KeyedTable.mem_scanAsc.1 (List.mem_reverse.1 hfilter.1), hk, ?_⟩
  simpa using hfilter.2

/-- A batch is empty only when no row has expired. -/
theorem live_of_batchOf_nil (h : batchOf t expiresAt now = []) {r : τ} (hr : r ∈ t.rows) :
    now < expiresAt r := by
  by_contra hcon
  have hmem : r ∈ (t.scanAsc expiresAt).reverse.filter fun r => decide (expiresAt r ≤ now) := by
    refine List.mem_filter.2 ⟨List.mem_reverse.2 (KeyedTable.mem_scanAsc.2 hr), ?_⟩
    simpa using not_lt.1 hcon
  rw [batchOf, List.map_eq_nil_iff, List.take_eq_nil_iff] at h
  rcases h with h | h
  · omega
  · rw [h] at hmem
    cases hmem

/-- A table that yields no batch is live as a whole. -/
theorem filter_live_of_batchOf_nil (h : batchOf t expiresAt now = []) :
    (t.filter fun r => decide (now < expiresAt r)) = t := by
  apply KeyedTable.filter_eq_self
  intro r hr
  exact decide_eq_true (live_of_batchOf_nil h hr)

/-- Deleting a batch takes nothing away from the live rows. -/
theorem filter_deleteBatch :
    ((batchOf t expiresAt now).foldl KeyedTable.delete t).filter
        (fun r => decide (now < expiresAt r)) =
      t.filter fun r => decide (now < expiresAt r) := by
  rw [KeyedTable.foldl_delete, KeyedTable.filter_filter]
  refine KeyedTable.filter_congr fun r hr => ?_
  by_cases hlive : now < expiresAt r
  · have hkept : key r ∉ batchOf t expiresAt now := by
      intro hmem
      obtain ⟨r', hr', hkey, hexp⟩ := expired_of_mem_batchOf hmem
      rw [KeyedTable.eq_of_mem_of_key t.sorted hr' hr hkey] at hexp
      omega
    simp [hlive, hkept]
  · simp [hlive]

/-- A batch has no key twice. -/
theorem nodup_batchOf : (batchOf t expiresAt now).Nodup := by
  have hscan := t.nodup_map_key_scanAsc expiresAt
  have hsub : (batchOf t expiresAt now).Sublist ((t.scanAsc expiresAt).reverse.map key) :=
    ((List.take_sublist _ _).trans List.filter_sublist).map key
  rw [List.map_reverse] at hsub
  exact hsub.nodup (List.nodup_reverse.2 hscan)

/-- A batch takes away as many rows as it has keys. -/
theorem length_foldl_deleteBatch :
    ((batchOf t expiresAt now).foldl KeyedTable.delete t).rows.length +
      (batchOf t expiresAt now).length = t.rows.length := by
  refine KeyedTable.length_foldl_delete nodup_batchOf fun k hk => ?_
  obtain ⟨r, hr, rfl, -⟩ := expired_of_mem_batchOf hk
  rw [KeyedTable.mem_rows_iff.1 hr]
  rfl

end Batch

/-! ## The spaces -/

theorem deleteKeys_rtpeCalls (b : Box) (keys : List LuaString) :
    b.deleteKeys .rtpeCalls keys =
      { b with rtpeCalls := keys.foldl KeyedTable.delete b.rtpeCalls } := by
  induction keys generalizing b with
  | nil => rfl
  | cons key keys ih => exact ih (b.deleteCall key)

theorem deleteKeys_kamDialogs (b : Box) (keys : List LuaString) :
    b.deleteKeys .kamDialogs keys =
      { b with kamDialogs := keys.foldl KeyedTable.delete b.kamDialogs } := by
  induction keys generalizing b with
  | nil => rfl
  | cons key keys ih => exact ih (b.deleteDialog key)

theorem deleteKeys_kamUsrloc (b : Box) (keys : List LuaString) :
    b.deleteKeys .kamUsrloc keys =
      { b with kamUsrloc := keys.foldl KeyedTable.delete b.kamUsrloc } := by
  induction keys generalizing b with
  | nil => rfl
  | cons key keys ih => exact ih { b with kamUsrloc := b.kamUsrloc.delete key }

/-- A round finds nothing to delete only when everything is live. -/
theorem keepLive_of_expiredKeys_nil {b : Box} {now : ℕ} {space : DrainedSpace}
    (h : b.expiredKeys now space = []) : b.keepLive now space = b := by
  cases space with
  | rtpeCalls =>
    simp only [Box.keepLive, filter_live_of_batchOf_nil h]
  | kamDialogs =>
    simp only [Box.keepLive, filter_live_of_batchOf_nil h]
  | kamUsrloc =>
    simp only [Box.keepLive, filter_live_of_batchOf_nil h]

/-- A round keeps the live tuples. -/
theorem keepLive_deleteKeys (b : Box) (now : ℕ) (space : DrainedSpace) :
    (b.deleteKeys space (b.expiredKeys now space)).keepLive now space = b.keepLive now space := by
  cases space with
  | rtpeCalls =>
    rw [deleteKeys_rtpeCalls]
    simp only [Box.keepLive, Box.expiredKeys, filter_deleteBatch]
  | kamDialogs =>
    rw [deleteKeys_kamDialogs]
    simp only [Box.keepLive, Box.expiredKeys, filter_deleteBatch]
  | kamUsrloc =>
    rw [deleteKeys_kamUsrloc]
    simp only [Box.keepLive, Box.expiredKeys, filter_deleteBatch]

/-- A round removes as many tuples as it counts. -/
theorem count_deleteKeys_add (b : Box) (now : ℕ) (space : DrainedSpace) :
    (b.deleteKeys space (b.expiredKeys now space)).count space +
      (b.expiredKeys now space).length = b.count space := by
  cases space with
  | rtpeCalls =>
    rw [deleteKeys_rtpeCalls]
    exact length_foldl_deleteBatch
  | kamDialogs =>
    rw [deleteKeys_kamDialogs]
    exact length_foldl_deleteBatch
  | kamUsrloc =>
    rw [deleteKeys_kamUsrloc]
    exact length_foldl_deleteBatch

/-! ## Sweeps -/

/-- With more rounds than tuples the loop gets to the end. -/
theorem drainRounds_eq {now : ℕ} {space : DrainedSpace} {rounds : ℕ} {b : Box}
    (h : b.count space < rounds) (purged : ℕ) :
    (drainRounds now space rounds purged b).2 = b.keepLive now space := by
  induction rounds generalizing b purged with
  | zero => omega
  | succ rounds ih =>
    rw [drainRounds]
    cases hkeys : b.expiredKeys now space with
    | nil => exact (keepLive_of_expiredKeys_nil hkeys).symm
    | cons key keys =>
      have hcount := count_deleteKeys_add b now space
      have hlive := keepLive_deleteKeys b now space
      rw [hkeys] at hcount hlive
      rw [List.length_cons] at hcount
      show (drainRounds now space rounds _ (b.deleteKeys space (key :: keys))).2 = _
      rw [ih (by omega), hlive]

/-- **What `drain_space` leaves.** -/
theorem drainSpace_eq (now : ℕ) (space : DrainedSpace) (b : Box) :
    (drainSpace now space b).2 = b.keepLive now space :=
  drainRounds_eq (Nat.lt_succ_self _) 0

/-- **What a sweep leaves.** -/
theorem sweep_eq (now : Clock) (b : Box) :
    sweep now b =
      { b with
        rtpeCalls := b.rtpeCalls.filter fun c => decide (now.epoch < c.expiresAt)
        kamDialogs := b.kamDialogs.filter fun d => decide (now.epoch < d.expiresAt)
        kamUsrloc := b.kamUsrloc.filter fun u => decide (now.epoch < u.expiresAt) } := by
  simp only [sweep, sweepOrder, List.foldl_cons, List.foldl_nil, drainSpace_eq]
  rfl

end VoipBackend
