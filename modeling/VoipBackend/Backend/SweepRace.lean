import VoipBackend.Backend.Rating
import VoipBackend.Backend.Sweep
import VoipBackend.Backend.Workers

/-!
# Sessions refreshed under the cleaner

The cleaner collects a batch of expired keys and then deletes them one by one, with a
suspension after every delete.  It does not look at a tuple again before it deletes it.
A call that is refreshed, or a dialog that is registered again, while its key waits in
the batch is removed although it has not expired (`drops_refreshed_call`).

That is the only way to lose a live tuple: as long as no fiber registers a waiting key
beyond the `now` of the sweep, every tuple the cleaner removes had expired
(`removesExpired_of_leavesCollected`), in any interleaving of any number of fibers.
-/

namespace VoipBackend

open Library

/-- `now` of the sweep a turn of the cleaner belongs to. -/
def Cleaner.sweepTime (now : Clock) : Cleaner → ℕ
  | .deleting t _ _ _ _ _ => t
  | .yielding t _ _ _ => t
  | _ => now.epoch

/-- The keys a fiber is about to delete, with their space and the `now` of the sweep. -/
def Worker.batch : Worker → Option (ℕ × DrainedSpace × List LuaString)
  | .backend (.cleaner (.deleting t space _ keys _ _)) => some (t, space, keys)
  | _ => none

/-- A fiber that is about to delete a key of a space, in a sweep that began at `t`. -/
def Worker.Collected (t : ℕ) (space : DrainedSpace) (key : LuaString) (w : Worker) : Prop :=
  ∃ keys, w.batch = some (t, space, keys) ∧ key ∈ keys

theorem Worker.not_collected {w : Worker} (h : w.batch = none) (t : ℕ) (space : DrainedSpace)
    (key : LuaString) : ¬ w.Collected t space key := by
  rintro ⟨keys, hbatch, -⟩
  rw [h] at hbatch
  cases hbatch

section Turns

variable {ι : Type} [DecidableEq ι]

/-- If it is the turn of the cleaner, the tuple it removes had expired by the `now` of its
sweep. -/
def RemovesExpired (c : Workers ι) (x : ι × Env) : Prop :=
  ∀ w, c.fiber x.1 = .backend (.cleaner w) → ∀ space key e,
    c.shared.expiry key space = some e → (c.turn x).shared.expiry key space = none →
      e ≤ w.sweepTime x.2.now

/-- The turn registers no key that waits to be deleted beyond the `now` of that sweep. -/
def LeavesCollected (c : Workers ι) (x : ι × Env) : Prop :=
  ∀ space key e, (c.fiber x.1).registers x.2 c.shared = some (space, key, e) →
    ∀ i t, (c.fiber i).Collected t space key → e ≤ t

/-- The keys that wait to be deleted are keys of expired tuples. -/
def CollectedExpired (c : Workers ι) : Prop :=
  ∀ i t space key e, (c.fiber i).Collected t space key → c.shared.expiry key space = some e → e ≤ t

end Turns

/-! ## A turn of the cleaner -/

/-- Only keys of expired tuples are collected. -/
theorem expiry_le_of_mem_expiredKeys {b : Box} {now : ℕ} {space : DrainedSpace} {key : LuaString}
    {e : ℕ} (h : key ∈ b.expiredKeys now space) (he : b.expiry key space = some e) : e ≤ now := by
  cases space with
  | rtpeCalls =>
    obtain ⟨r, hr, hk, hexp⟩ := expired_of_mem_batchOf h
    rw [Box.expiry, ← hk, KeyedTable.mem_rows_iff.1 hr] at he
    exact Option.some.inj he ▸ hexp
  | kamDialogs =>
    obtain ⟨r, hr, hk, hexp⟩ := expired_of_mem_batchOf h
    rw [Box.expiry, ← hk, KeyedTable.mem_rows_iff.1 hr] at he
    exact Option.some.inj he ▸ hexp
  | kamUsrloc =>
    obtain ⟨r, hr, hk, hexp⟩ := expired_of_mem_batchOf h
    rw [Box.expiry, ← hk, KeyedTable.mem_rows_iff.1 hr] at he
    exact Option.some.inj he ▸ hexp

/-- **Where the keys come from.**  A turn of the cleaner that leaves the tuples alone
collects nothing; one that deletes a tuple goes on with the batch it has, or collects a new
one at the `now` of its sweep. -/
theorem Cleaner.resume_collects (now : Clock) (isRunning : Bool) (w : Cleaner) (b : Box) :
    ((w.resume now isRunning b).2 = b ∧
      ∀ t space key, ¬ (Worker.backend (.cleaner (w.resume now isRunning b).1)).Collected
        t space key) ∨
    ∃ space later key keys size purged,
      w.resume now isRunning b =
        (.deleting (w.sweepTime now) space later keys size purged, b.deleteFrom key space) ∧
      ((∀ k ∈ key :: keys, k ∈ b.expiredKeys (w.sweepTime now) space) ∨
        ∀ k ∈ key :: keys, (Worker.backend (.cleaner w)).Collected (w.sweepTime now) space k) := by
  have hdrain : ∀ t purged spaces,
      ((drainSpaces isRunning t b purged spaces).2 = b ∧
        ∀ t' space key, ¬ (Worker.backend (.cleaner
          (drainSpaces isRunning t b purged spaces).1)).Collected t' space key) ∨
      ∃ space later key keys size purged',
        drainSpaces isRunning t b purged spaces =
          (.deleting t space later keys size purged', b.deleteFrom key space) ∧
        ((∀ k ∈ key :: keys, k ∈ b.expiredKeys t space) ∨
          ∀ k ∈ key :: keys, (Worker.backend (.cleaner w)).Collected t space k) := by
    intro t purged spaces
    rcases drainSpaces_collects isRunning t b purged spaces with h |
      ⟨space, later, key, keys, size, purged', hkeys, h⟩
    · rw [h]
      exact Or.inl ⟨rfl, Worker.not_collected rfl⟩
    · refine Or.inr ⟨space, later, key, keys, size, purged', h, Or.inl fun k hk => ?_⟩
      rw [hkeys]
      exact hk
  cases w with
  | awake =>
    rw [resume]
    split_ifs
    · exact hdrain now.epoch 0 sweepOrder
    · exact Or.inl ⟨rfl, Worker.not_collected rfl⟩
  | deleting t space later keys size purged =>
    cases keys with
    | nil => exact Or.inl ⟨rfl, Worker.not_collected rfl⟩
    | cons key keys =>
      exact Or.inr ⟨space, later, key, keys, size, purged, rfl,
        Or.inr fun k hk => ⟨key :: keys, rfl, hk⟩⟩
  | yielding t space later purged => exact hdrain t purged (space :: later)
  | stopped => exact Or.inl ⟨rfl, Worker.not_collected rfl⟩

/-- Only the cleaner collects keys. -/
theorem cleaner_of_collected {env : Env} {w : Worker} {b : Box} {t : ℕ} {space : DrainedSpace}
    {key : LuaString} (h : (w.resume env b).1.Collected t space key) :
    ∃ cl, w = .backend (.cleaner cl) := by
  obtain ⟨keys, h, -⟩ := h
  have hteardown : ∀ fib : Fiber, fib.IsTeardown →
      (Worker.backend fib).batch ≠ some (t, space, keys) := by
    intro fib hfib hcol
    match fib with
    | .cleaner cl => exact hfib
  match w with
  | .backend (.cleaner cl) => exact ⟨cl, rfl⟩
  | .backend (.request (.finalizeCdr a)) =>
    exact absurd h (hteardown _ (isTeardown_startFinalizeCdr env.now a b))
  | .backend (.storingCdr f) => exact absurd h (hteardown _ (isTeardown_storeCdr f b))
  | .backend (.request (.authorizeCall a)) => cases h
  | .backend (.request (.addSubscriber a)) => cases h
  | .backend (.request (.updateBalance subId deltaAmount)) => cases h
  | .backend (.request (.setTariff a)) => cases h
  | .backend (.deletingDialog f) => cases h
  | .backend (.deletingCall f) => cases h
  | .backend (.done outcome) => cases h
  | .session (.callUpsert a) => cases h
  | .session (.callDelete callId) => cases h
  | .answered reply => cases h

section Runs

variable {ι : Type} [DecidableEq ι] {c : Workers ι} {x : ι × Env}

omit [DecidableEq ι] in
/-- In a turn of the cleaner, every key of the batch it works on is a key of an expired
tuple. -/
theorem collectedExpired_batch {cl : Cleaner} {space : DrainedSpace} {key k : LuaString}
    {keys : List LuaString} {e : ℕ} (hinv : CollectedExpired c)
    (hfib : c.fiber x.1 = .backend (.cleaner cl))
    (hkeys : (∀ k ∈ key :: keys, k ∈ c.shared.expiredKeys (cl.sweepTime x.2.now) space) ∨
      ∀ k ∈ key :: keys, (Worker.backend (.cleaner cl)).Collected (cl.sweepTime x.2.now) space k)
    (hk : k ∈ key :: keys) (he : c.shared.expiry k space = some e) :
    e ≤ cl.sweepTime x.2.now := by
  rcases hkeys with hkeys | hkeys
  · exact expiry_le_of_mem_expiredKeys (hkeys k hk) he
  · refine hinv x.1 _ space k e ?_ he
    rw [hfib]
    exact hkeys k hk

theorem removesExpired_turn (hinv : CollectedExpired c) : RemovesExpired c x := by
  intro cl hfib space k e he hgone
  obtain ⟨i, env⟩ := x
  simp only [Config.turn_shared] at hgone
  rw [hfib] at hgone
  change (cl.resume env.now env.isRunning c.shared).2.expiry k space = none at hgone
  rcases cl.resume_collects env.now env.isRunning c.shared with ⟨hbox, -⟩ |
    ⟨space', later, key, keys, size, purged, hres, hkeys⟩
  · rw [hbox, he] at hgone
    cases hgone
  · rw [hres, expiry_deleteFrom] at hgone
    split_ifs at hgone with hdel
    · obtain ⟨rfl, rfl⟩ := hdel
      exact collectedExpired_batch (x := (i, env)) hinv hfib hkeys List.mem_cons_self he
    · rw [he] at hgone
      cases hgone

theorem collectedExpired_turn (hinv : CollectedExpired c) (hleaves : LeavesCollected c x) :
    CollectedExpired (c.turn x) := by
  intro j t space k e hcol he
  obtain ⟨i, env⟩ := x
  simp only [Config.turn_shared] at he
  by_cases hij : j = i
  · -- the fiber whose turn it was: it can only have a batch if it is the cleaner
    subst hij
    rw [Config.turn_fiber_self] at hcol
    obtain ⟨cl, hfib⟩ := cleaner_of_collected hcol
    rw [hfib] at hcol
    have hbefore : c.shared.expiry k space = some e := by
      rcases expiry_resume he with h | h
      · exact h
      · rw [hfib] at h
        cases h
    rcases cl.resume_collects env.now env.isRunning c.shared with ⟨-, hnone⟩ |
      ⟨space', later, key, keys, size, purged, hres, hkeys⟩
    · exact absurd hcol (hnone t space k)
    · change (Worker.backend (.cleaner (cl.resume env.now env.isRunning c.shared).1)).Collected
        t space k at hcol
      rw [hres] at hcol
      obtain ⟨keys', hbatch, hk⟩ := hcol
      cases hbatch
      exact collectedExpired_batch (x := (j, env)) hinv hfib hkeys (List.mem_cons_of_mem _ hk)
        hbefore
  · rw [Config.turn_fiber_of_ne _ _ _ hij] at hcol
    rcases expiry_resume he with h | h
    · exact hinv j t space k e hcol h
    · exact hleaves space k e h j t hcol

/-- **The cleaner takes only what has expired**, in every run in which no fiber registers a
key beyond the `now` of a sweep that has collected it. -/
theorem removesExpired_of_leavesCollected
    (hstart : ∀ i t space key, ¬ (c.fiber i).Collected t space key) {l : List (ι × Env)}
    (hl : AllSteps Workers.turn LeavesCollected c l) :
    AllSteps Workers.turn RemovesExpired c l := by
  have hinv : CollectedExpired c := fun i t space key e hcol _ => absurd hcol (hstart i t space key)
  exact AllSteps.of_invariant
    (fun c x hinv hleaves => ⟨collectedExpired_turn hinv hleaves, removesExpired_turn hinv⟩) hinv hl

end Runs

/-! ## A refreshed call that is lost -/

/-- Two calls that expired at noon. -/
def expiredCalls : Box :=
  { Box.init with
    rtpeCalls := (KeyedTable.empty.put
      ⟨ascii "c1", ascii "rtpe-01", ascii "active", 0, 0, noon.epoch, .string []⟩).put
      ⟨ascii "c2", ascii "rtpe-01", ascii "active", 0, 0, noon.epoch, .string []⟩ }

/-- The cleaner, and beside it a media relay that registers a call for an hour. -/
def cleanerAndRelay (callId : String) : Workers Bool :=
  ⟨expiredCalls, fun
    | true => .backend (.cleaner .awake)
    | false => .session (.callUpsert
        ⟨.string (ascii callId), .string (ascii "rtpe-01"), .string (ascii "v=0"), .nil⟩)⟩

/-- The relay registers its call while the second key of the batch waits, all at noon. -/
def betweenTwoDeletes : List (Bool × Env) :=
  [(true, ⟨noon, true⟩), (false, ⟨noon, true⟩), (true, ⟨noon, true⟩)]

theorem not_collected_cleanerAndRelay (callId : String) (i : Bool) (t : ℕ) (space : DrainedSpace)
    (key : LuaString) : ¬ ((cleanerAndRelay callId).fiber i).Collected t space key := by
  cases i <;> exact Worker.not_collected rfl t space key

/-- A relay that registers a new call is no danger. -/
theorem removesExpired_newCall :
    AllSteps Workers.turn RemovesExpired (cleanerAndRelay "c3") betweenTwoDeletes := by
  refine removesExpired_of_leavesCollected (not_collected_cleanerAndRelay "c3") ⟨?_, ?_, ?_, trivial⟩
  · intro space key e h
    cases h
  · -- the relay registers `c3`, and only `c1` waits
    intro space key e h i t hcol
    have hreg : Worker.registers ⟨noon, true⟩
        ((cleanerAndRelay "c3").turn (true, ⟨noon, true⟩)).shared
        (((cleanerAndRelay "c3").turn (true, ⟨noon, true⟩)).fiber false) =
          some (.rtpeCalls, ascii "c3", noon.epoch + 3600) := by decide +kernel
    obtain ⟨keys, hbatch, hk⟩ := hcol
    cases i with
    | false => cases hbatch
    | true =>
      have hwaits : (((cleanerAndRelay "c3").turn (true, ⟨noon, true⟩)).fiber true).batch =
          some (noon.epoch, .rtpeCalls, [ascii "c1"]) := by decide +kernel
      cases hreg.symm.trans h
      cases hwaits.symm.trans hbatch
      revert hk
      decide
  · intro space key e h
    cases h

/-- **A live call removed.**  The call `c1` is refreshed for an hour while its key waits to
be deleted, and is deleted all the same; the clock stands still. -/
theorem drops_refreshed_call :
    (betweenTwoDeletes.map fun x => x.2.now.time).Pairwise (· ≤ ·) ∧
      ¬ AllSteps Workers.turn RemovesExpired (cleanerAndRelay "c1") betweenTwoDeletes := by
  refine ⟨by simp [betweenTwoDeletes], ?_⟩
  rintro ⟨-, -, hlast, -⟩
  have hle := hlast _ rfl .rtpeCalls (ascii "c1") (noon.epoch + 3600) (by decide +kernel)
    (by decide +kernel)
  revert hle
  decide +kernel

end VoipBackend
