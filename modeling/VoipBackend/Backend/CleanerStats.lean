import VoipBackend.Backend.Cleaners

/-!
# What the cleaner reports

The counters of `ttl_worker.get_stats`.  `drain_space` counts the keys of a batch once the batch is
deleted, whether or not a delete found its tuple, and a counter moves when `drain_space` returns.

So a counter and what the cleaners in their drains still hold (`underway`) never fall behind the
tuples that were removed.  They run ahead of them when a key of a batch is deleted by another fiber
first, a second cleaner among them; otherwise they agree at every time (`purged_counts_removed`).
-/

namespace VoipBackend

open Library

/-! ## The counters -/

/-- `stats`. -/
structure TtlStats where
  purgedCalls : ℕ
  purgedDialogs : ℕ
  purgedUsrloc : ℕ
  lastSweep : ℕ
  sweepsCount : ℕ

namespace TtlStats

/-- Before the first sweep. -/
def init : TtlStats := ⟨0, 0, 0, 0, 0⟩

/-- The counter of a space. -/
def purged (stats : TtlStats) : DrainedSpace → ℕ
  | .rtpeCalls => stats.purgedCalls
  | .kamDialogs => stats.purgedDialogs
  | .kamUsrloc => stats.purgedUsrloc

/-- What a sweep notes before it drains anything. -/
def beginSweep (stats : TtlStats) (now : ℕ) : TtlStats :=
  { stats with lastSweep := now, sweepsCount := stats.sweepsCount + 1 }

/-- What a sweep adds when `drain_space` returns `n`. -/
def drained (stats : TtlStats) (n : ℕ) : DrainedSpace → TtlStats
  | .rtpeCalls => if n > 0 then { stats with purgedCalls := stats.purgedCalls + n } else stats
  | .kamDialogs => if n > 0 then { stats with purgedDialogs := stats.purgedDialogs + n } else stats
  | .kamUsrloc => if n > 0 then { stats with purgedUsrloc := stats.purgedUsrloc + n } else stats

@[simp] theorem purged_init (space : DrainedSpace) : init.purged space = 0 := by
  cases space <;> rfl

@[simp] theorem purged_beginSweep (stats : TtlStats) (now : ℕ) (space : DrainedSpace) :
    (stats.beginSweep now).purged space = stats.purged space := by
  cases space <;> rfl

theorem purged_drained (stats : TtlStats) (n : ℕ) (space space' : DrainedSpace) :
    (stats.drained n space).purged space' =
      stats.purged space' + if space = space' then n else 0 := by
  obtain rfl | hn := Nat.eq_zero_or_pos n
  · cases space <;> simp [drained]
  · cases space <;> cases space' <;> simp [drained, purged, hn]

end TtlStats

/-- The counters after the rest of a sweep, as far as the fiber gets with it. -/
def returnCounts (isRunning : Bool) (now : ℕ) (b : Box) :
    ℕ → List DrainedSpace → TtlStats → TtlStats
  | _, [], stats => stats
  | purged, space :: later, stats =>
      match if isRunning then b.expiredKeys now space else [] with
      | [] => returnCounts isRunning now b 0 later (stats.drained purged space)
      | _ :: _ => stats

namespace Cleaner

/-- The counters after a turn of the fiber. -/
def resumeStats (now : Clock) (isRunning : Bool) (b : Box) (stats : TtlStats) :
    Cleaner → TtlStats
  | .awake =>
      if isRunning then
        returnCounts isRunning now.epoch b 0 sweepOrder (stats.beginSweep now.epoch)
      else stats
  | .deleting _ _ _ _ _ _ => stats
  | .yielding t space later purged => returnCounts isRunning t b purged (space :: later) stats
  | .stopped => stats

/-- The deletes of a drain that is still going on. -/
def underway (space : DrainedSpace) : Cleaner → ℕ
  | .deleting _ space' _ keys size purged =>
      if space' = space then purged + (size - keys.length) else 0
  | .yielding _ space' _ purged => if space' = space then purged else 0
  | .awake => 0
  | .stopped => 0

/-- A batch has at least the keys that are left of it, and the first. -/
def Sized : Cleaner → Prop
  | .deleting _ _ _ keys size _ => keys.length < size
  | _ => True

end Cleaner

/-- The worker with its counters. -/
structure CountedWorker where
  worker : TtlWorker
  stats : TtlStats

/-- What `get_stats` returns. -/
structure TtlReport extends TtlStats where
  isRunning : Bool

namespace CountedWorker

/-- `ttl_worker.get_stats`. -/
def getStats (s : CountedWorker) : TtlReport := { s.stats with isRunning := s.worker.isRunning }

/-- The counters after a step.  The other fibers do not touch them. -/
def stepStats (s : CountedWorker) : TtlAction → TtlStats
  | .start now =>
      if s.worker.isRunning then s.stats
      else Cleaner.awake.resumeStats now true s.worker.box s.stats
  | .turn i now =>
      match s.worker.fibers[i]? with
      | none => s.stats
      | some w => w.resumeStats now s.worker.isRunning s.worker.box s.stats
  | _ => s.stats

/-- One step. -/
def step (s : CountedWorker) (a : TtlAction) : CountedWorker := ⟨s.worker.step a, s.stepStats a⟩

/-- Before the first start. -/
def init (b : Box) : CountedWorker := ⟨.init b, .init⟩

/-- The tuples of a space that a step of the worker removes. -/
def removed (space : DrainedSpace) (s : CountedWorker) : TtlAction → ℕ
  | .others _ => 0
  | a => s.worker.box.count space - (s.worker.step a).box.count space

/-- The deletes of all drains that are still going on. -/
def underway (space : DrainedSpace) (s : CountedWorker) : ℕ :=
  (s.worker.fibers.map (Cleaner.underway space)).sum

end CountedWorker

/-! ## The other fibers -/

/-- A tuple with this key. -/
def Box.Holds (b : Box) (key : LuaString) : DrainedSpace → Prop
  | .rtpeCalls => (b.rtpeCalls.get key).isSome
  | .kamDialogs => (b.kamDialogs.get key).isSome
  | .kamUsrloc => (b.kamUsrloc.get key).isSome

/-- Nobody but one cleaner at a time deletes anything: a start that takes effect finds the earlier
cleaners out of their loops, and the other fibers may insert and replace tuples only. -/
def CountedWorker.Undisturbed (s : CountedWorker) : TtlAction → Prop
  | .others b => ∀ space key, s.worker.box.Holds key space → b.Holds key space
  | a => s.worker.StartsAlone a

/-- Every key that a fiber has still to delete is there. -/
def Cleaner.Finds (b : Box) : Cleaner → Prop
  | .deleting _ space _ keys _ _ => keys.Nodup ∧ ∀ key ∈ keys, b.Holds key space
  | _ => True

/-! ## Deletes -/

section Deletes

variable {b : Box} {key : LuaString} {space : DrainedSpace}

theorem length_delete {τ : Type} {key : τ → LuaString} (t : KeyedTable key) (k : LuaString) :
    (t.delete k).rows.length + (t.get k).elim 0 (fun _ => 1) = t.rows.length := by
  have h := KeyedTable.sumOf_delete t (fun _ => 1) k
  rwa [← KeyedTable.length_eq_sumOf, ← KeyedTable.length_eq_sumOf] at h

/-- A delete of a tuple that is there removes it. -/
theorem count_deleteFrom_of_holds (h : b.Holds key space) :
    (b.deleteFrom key space).count space + 1 = b.count space := by
  cases space with
  | rtpeCalls =>
    obtain ⟨r, hr⟩ := Option.isSome_iff_exists.1 h
    have hlen := length_delete b.rtpeCalls key
    rwa [hr] at hlen
  | kamDialogs =>
    obtain ⟨r, hr⟩ := Option.isSome_iff_exists.1 h
    have hlen := length_delete b.kamDialogs key
    rwa [hr] at hlen
  | kamUsrloc =>
    obtain ⟨r, hr⟩ := Option.isSome_iff_exists.1 h
    have hlen := length_delete b.kamUsrloc key
    rwa [hr] at hlen

/-- It removes one tuple at most. -/
theorem count_le_deleteFrom (b : Box) (key : LuaString) (space : DrainedSpace) :
    b.count space ≤ (b.deleteFrom key space).count space + 1 := by
  have helim : ∀ {τ : Type} (o : Option τ), o.elim 0 (fun _ => 1) ≤ 1 := by
    intro τ o
    cases o <;> simp
  cases space with
  | rtpeCalls =>
    have hlen := length_delete b.rtpeCalls key
    have := helim (b.rtpeCalls.get key)
    show b.rtpeCalls.rows.length ≤ (b.rtpeCalls.delete key).rows.length + 1
    omega
  | kamDialogs =>
    have hlen := length_delete b.kamDialogs key
    have := helim (b.kamDialogs.get key)
    show b.kamDialogs.rows.length ≤ (b.kamDialogs.delete key).rows.length + 1
    omega
  | kamUsrloc =>
    have hlen := length_delete b.kamUsrloc key
    have := helim (b.kamUsrloc.get key)
    show b.kamUsrloc.rows.length ≤ (b.kamUsrloc.delete key).rows.length + 1
    omega

theorem count_deleteFrom_of_ne {space' : DrainedSpace} (hne : space' ≠ space) :
    (b.deleteFrom key space').count space = b.count space := by
  cases space' <;> cases space <;> first | rfl | exact absurd rfl hne

theorem holds_deleteFrom {key' : LuaString} (hne : key' ≠ key) (h : b.Holds key' space) :
    (b.deleteFrom key space).Holds key' space := by
  cases space with
  | rtpeCalls =>
    show ((b.rtpeCalls.delete key).get key').isSome
    rw [KeyedTable.get_delete, if_neg hne]
    exact h
  | kamDialogs =>
    show ((b.kamDialogs.delete key).get key').isSome
    rw [KeyedTable.get_delete, if_neg hne]
    exact h
  | kamUsrloc =>
    show ((b.kamUsrloc.delete key).get key').isSome
    rw [KeyedTable.get_delete, if_neg hne]
    exact h

theorem isSome_of_mem_batchOf {τ : Type} {key : τ → LuaString} {t : KeyedTable key}
    {expiresAt : τ → ℕ} {now : ℕ} {k : LuaString} (h : k ∈ batchOf t expiresAt now) :
    (t.get k).isSome := by
  obtain ⟨r, hr, rfl, -⟩ := expired_of_mem_batchOf h
  rw [KeyedTable.mem_rows_iff.1 hr]
  rfl

/-- The keys of a batch are there, each once. -/
theorem finds_expiredKeys (b : Box) (now : ℕ) (space : DrainedSpace) :
    (b.expiredKeys now space).Nodup ∧ ∀ key ∈ b.expiredKeys now space, b.Holds key space := by
  cases space with
  | rtpeCalls => exact ⟨nodup_batchOf, fun _ => isSome_of_mem_batchOf⟩
  | kamDialogs => exact ⟨nodup_batchOf, fun _ => isSome_of_mem_batchOf⟩
  | kamUsrloc => exact ⟨nodup_batchOf, fun _ => isSome_of_mem_batchOf⟩

/-- The first delete of a list of keys that are there leaves the others. -/
theorem finds_tail {keys : List LuaString} (hnodup : (key :: keys).Nodup)
    (hholds : ∀ k ∈ key :: keys, b.Holds k space) :
    keys.Nodup ∧ ∀ k ∈ keys, (b.deleteFrom key space).Holds k space := by
  obtain ⟨hkey, hkeys⟩ := List.nodup_cons.1 hnodup
  refine ⟨hkeys, fun k hk => holds_deleteFrom ?_ (hholds k (List.mem_cons_of_mem key hk))⟩
  rintro rfl
  exact hkey hk

end Deletes

/-! ## One turn -/

/-- Where a turn leaves the fiber and the spaces, what it adds to the count of each space, and, as
long as the keys the fiber has to delete are there, that its delete finds a tuple. -/
structure Accounts (b : Box) (found : Prop) (w : Cleaner) (b' : Box)
    (before after : DrainedSpace → ℕ) : Prop where
  sized : w.Sized
  finds : found → w.Finds b'
  counts : (b' = b ∧ after = before) ∨
    ∃ key space', b' = b.deleteFrom key space' ∧ (found → b.Holds key space') ∧
      ∀ space, after space = before space + if space' = space then 1 else 0

namespace Accounts

variable {b b' : Box} {found : Prop} {w : Cleaner} {before after : DrainedSpace → ℕ}

theorem of_true (h : Accounts b True w b' before after) (found : Prop) :
    Accounts b found w b' before after := by
  refine ⟨h.sized, fun _ => h.finds trivial, ?_⟩
  obtain hidle | ⟨key, space', hb, hholds, hafter⟩ := h.counts
  · exact Or.inl hidle
  · exact Or.inr ⟨key, space', hb, fun _ => hholds trivial, hafter⟩

/-- The counts do not fall behind the tuples that are removed. -/
theorem removed_add_le (h : Accounts b found w b' before after) (space : DrainedSpace) :
    b.count space - b'.count space + before space ≤ after space := by
  obtain ⟨rfl, rfl⟩ | ⟨key, space', rfl, -, hafter⟩ := h.counts
  · omega
  · rw [hafter]
    split_ifs with heq
    · subst heq
      have := count_le_deleteFrom b key space'
      omega
    · rw [count_deleteFrom_of_ne heq]
      omega

/-- They do not run ahead of them, if the tuples are there. -/
theorem removed_add_eq (h : Accounts b found w b' before after) (hfound : found)
    (space : DrainedSpace) : b.count space - b'.count space + before space = after space := by
  obtain ⟨rfl, rfl⟩ | ⟨key, space', rfl, hholds, hafter⟩ := h.counts
  · omega
  · rw [hafter]
    split_ifs with heq
    · subst heq
      have := count_deleteFrom_of_holds (hholds hfound)
      omega
    · rw [count_deleteFrom_of_ne heq]
      omega

end Accounts

section Turn

variable {b : Box} {now purged : ℕ} {space₀ : DrainedSpace} {later : List DrainedSpace}
  {stats : TtlStats}

/-- A batch is collected, and its first key deleted. -/
theorem accounts_batch {key : LuaString} {keys : List LuaString}
    (hkeys : b.expiredKeys now space₀ = key :: keys) :
    Accounts b True (.deleting now space₀ later keys (keys.length + 1) purged)
      (b.deleteFrom key space₀)
      (fun space => stats.purged space + if space₀ = space then purged else 0)
      (fun space => stats.purged space +
        (Cleaner.deleting now space₀ later keys (keys.length + 1) purged).underway space) := by
  obtain ⟨hnodup, hholds⟩ := finds_expiredKeys b now space₀
  rw [hkeys] at hnodup hholds
  refine ⟨Nat.lt_succ_self _, fun _ => finds_tail hnodup hholds, Or.inr ?_⟩
  refine ⟨key, space₀, rfl, fun _ => hholds key List.mem_cons_self, fun space => ?_⟩
  simp only [Cleaner.underway]
  split_ifs <;> omega

/-- The rest of a sweep, to the next suspension. -/
theorem accounts_drainSpaces (isRunning : Bool) (b : Box) (now purged : ℕ)
    (space₀ : DrainedSpace) (later : List DrainedSpace) (stats : TtlStats) :
    Accounts b True (drainSpaces isRunning now b purged (space₀ :: later)).1
      (drainSpaces isRunning now b purged (space₀ :: later)).2
      (fun space => stats.purged space + if space₀ = space then purged else 0)
      (fun space => (returnCounts isRunning now b purged (space₀ :: later) stats).purged space +
        (drainSpaces isRunning now b purged (space₀ :: later)).1.underway space) := by
  induction later generalizing purged space₀ stats with
  | nil =>
    rw [drainSpaces, returnCounts]
    cases hkeys : if isRunning then b.expiredKeys now space₀ else [] with
    | nil =>
      refine ⟨trivial, fun _ => trivial, Or.inl ⟨rfl, funext fun space => ?_⟩⟩
      exact TtlStats.purged_drained stats purged space₀ space
    | cons key keys =>
      cases isRunning with
      | false => cases hkeys
      | true => exact accounts_batch hkeys
  | cons space₁ later ih =>
    rw [drainSpaces, returnCounts]
    cases hkeys : if isRunning then b.expiredKeys now space₀ else [] with
    | nil =>
      have hrest := ih 0 space₁ (stats.drained purged space₀)
      simp only [TtlStats.purged_drained, ite_self, add_zero] at hrest
      exact hrest
    | cons key keys =>
      cases isRunning with
      | false => cases hkeys
      | true => exact accounts_batch hkeys

/-- **One turn of a cleaner.**  What it adds to the counters and to its own count is the delete it
executes, and nothing else. -/
theorem accounts_resume (now : Clock) (isRunning : Bool) {w : Cleaner} (hw : w.Sized) (b : Box)
    (stats : TtlStats) :
    Accounts b (w.Finds b) (w.resume now isRunning b).1 (w.resume now isRunning b).2
      (fun space => stats.purged space + w.underway space)
      (fun space => (w.resumeStats now isRunning b stats).purged space +
        (w.resume now isRunning b).1.underway space) := by
  cases w with
  | awake =>
    rw [Cleaner.resume, Cleaner.resumeStats]
    cases isRunning with
    | false => exact ⟨trivial, fun _ => trivial, Or.inl ⟨rfl, rfl⟩⟩
    | true =>
      have hrest := accounts_drainSpaces true b now.epoch 0 .rtpeCalls [.kamDialogs, .kamUsrloc]
        (stats.beginSweep now.epoch)
      simp only [TtlStats.purged_beginSweep, ite_self] at hrest
      exact hrest.of_true _
  | deleting t space₀ later keys size purged =>
    cases keys with
    | nil =>
      refine ⟨trivial, fun _ => trivial, Or.inl ⟨rfl, funext fun space => ?_⟩⟩
      simp [Cleaner.resumeStats, Cleaner.resume, Cleaner.underway]
    | cons key keys =>
      have hsize : keys.length + 1 < size := hw
      refine ⟨show keys.length < size by omega, fun hfinds => finds_tail hfinds.1 hfinds.2,
        Or.inr ⟨key, space₀, rfl, fun hfinds => hfinds.2 key List.mem_cons_self, fun space => ?_⟩⟩
      simp only [Cleaner.resumeStats, Cleaner.resume, Cleaner.underway, List.length_cons]
      split_ifs <;> omega
  | yielding t space₀ later purged =>
    exact (accounts_drainSpaces isRunning b t purged space₀ later stats).of_true _
  | stopped => exact ⟨trivial, fun _ => trivial, Or.inl ⟨rfl, rfl⟩⟩

end Turn

/-! ## The worker -/

theorem sum_map_set {α : Type} (f : α → ℕ) {l : List α} {i : ℕ} {x : α} (h : l[i]? = some x)
    (y : α) : ((l.set i y).map f).sum + f x = (l.map f).sum + f y := by
  induction l generalizing i with
  | nil => cases h
  | cons z l ih =>
    cases i with
    | zero =>
      cases h
      simp only [List.set_cons_zero, List.map_cons, List.sum_cons]
      omega
    | succ i =>
      have := ih (i := i) h
      simp only [List.set_cons_succ, List.map_cons, List.sum_cons]
      omega

namespace CountedWorker

variable {s : CountedWorker} {a : TtlAction}

/-- Every fiber has a batch of the right size. -/
def Sized (s : CountedWorker) : Prop := ∀ w ∈ s.worker.fibers, w.Sized

/-- One fiber at most is in its loop, and every key it has to delete is there. -/
def Tidy (s : CountedWorker) : Prop :=
  s.worker.OneInLoop ∧ ∀ w ∈ s.worker.fibers, w.Finds s.worker.box

/-- What is counted of a space, returned or not. -/
def counted (space : DrainedSpace) (s : CountedWorker) : ℕ :=
  s.stats.purged space + s.underway space

/-- The counts after a step keep up with the tuples it removes, and agree with them if the keys of
the batches are there. -/
def Keeps (s : CountedWorker) (a : TtlAction) : Prop :=
  ∀ space, s.removed space a + s.counted space ≤ (s.step a).counted space ∧
    ((∀ w ∈ s.worker.fibers, w.Finds s.worker.box) →
      s.removed space a + s.counted space = (s.step a).counted space)

/-- A step that does nothing. -/
theorem keeps_of_eq (h : s.step a = s) : s.Keeps a := by
  intro space
  have hworker : s.worker.step a = s.worker := congrArg worker h
  have hremoved : s.removed space a = 0 := by
    cases a with
    | others b => rfl
    | _ =>
      show _ - (s.worker.step _).box.count space = 0
      rw [hworker]
      exact Nat.sub_self (s.worker.box.count space)
  rw [hremoved, h]
  omega

/-! ### A turn -/

section Turn

variable {i : ℕ} {w : Cleaner} {now : Clock}

theorem step_turn (hw : s.worker.fibers[i]? = some w) (now : Clock) :
    s.step (.turn i now) =
      ⟨⟨s.worker.isRunning,
          s.worker.fibers.set i (w.resume now s.worker.isRunning s.worker.box).1,
          (w.resume now s.worker.isRunning s.worker.box).2⟩,
        w.resumeStats now s.worker.isRunning s.worker.box s.stats⟩ := by
  simp only [step, stepStats, TtlWorker.step, TtlWorker.turn, hw]

theorem step_turn_none (hw : s.worker.fibers[i]? = none) (now : Clock) :
    s.step (.turn i now) = s := by
  simp only [step, stepStats, TtlWorker.step, TtlWorker.turn, hw]

theorem sized_turn (hs : s.Sized) (i : ℕ) (now : Clock) : (s.step (.turn i now)).Sized := by
  cases hw : s.worker.fibers[i]? with
  | none =>
    rw [step_turn_none hw]
    exact hs
  | some w =>
    have hmem := List.mem_of_getElem? hw
    intro w' hw'
    rw [step_turn hw] at hw'
    rcases List.mem_or_eq_of_mem_set hw' with hw' | rfl
    · exact hs w' hw'
    · exact (accounts_resume now s.worker.isRunning (hs w hmem) s.worker.box s.stats).sized

/-- **A turn.** -/
theorem keeps_turn (hs : s.Sized) (i : ℕ) (now : Clock) : s.Keeps (.turn i now) := by
  cases hw : s.worker.fibers[i]? with
  | none => exact keeps_of_eq (step_turn_none hw now)
  | some w =>
    intro space
    have hmem := List.mem_of_getElem? hw
    have haccounts := accounts_resume now s.worker.isRunning (hs w hmem) s.worker.box s.stats
    have hset := sum_map_set (Cleaner.underway space) hw
      (w.resume now s.worker.isRunning s.worker.box).1
    have hremoved : s.removed space (.turn i now) = s.worker.box.count space -
        (w.resume now s.worker.isRunning s.worker.box).2.count space := by
      show _ - (s.step (.turn i now)).worker.box.count space = _
      rw [step_turn hw]
    have hle := haccounts.removed_add_le space
    rw [hremoved, step_turn hw]
    simp only [counted, underway]
    refine ⟨by omega, fun hfinds => ?_⟩
    have heq : _ + (_ + _) = _ + _ := haccounts.removed_add_eq (hfinds w hmem) space
    omega

/-- A fiber in its loop is the only one, so the others have nothing to delete. -/
theorem tidy_turn (hs : s.Sized) (h : s.Tidy) (i : ℕ) (now : Clock) :
    (s.step (.turn i now)).Tidy := by
  refine ⟨TtlWorker.step_oneInLoop h.1 (a := .turn i now) trivial, ?_⟩
  cases hw : s.worker.fibers[i]? with
  | none =>
    rw [step_turn_none hw]
    exact h.2
  | some w =>
    have hmem := List.mem_of_getElem? hw
    have haccounts := accounts_resume now s.worker.isRunning (hs w hmem) s.worker.box s.stats
    intro w' hw'
    rw [step_turn hw] at hw' ⊢
    obtain ⟨j, hj⟩ := List.getElem?_of_mem hw'
    by_cases hij : i = j
    · subst hij
      rw [List.getElem?_set_self (List.getElem?_eq_some_iff.1 hw).1] at hj
      rw [← Option.some.inj hj]
      exact haccounts.finds (h.2 w hmem)
    · rw [List.getElem?_set_ne hij] at hj
      by_cases hstopped : w = .stopped
      · subst hstopped
        exact h.2 w' (List.mem_of_getElem? hj)
      · have hother : w' = .stopped := by
          by_contra hloop
          exact hij (h.1 i j w w' hw hj hstopped hloop)
        rw [hother]
        trivial

end Turn

/-! ### A start -/

/-- A worker with a fiber that has not had its first turn. -/
def spawn (s : CountedWorker) : CountedWorker :=
  ⟨⟨true, s.worker.fibers ++ [.awake], s.worker.box⟩, s.stats⟩

/-- **A start** that takes effect is a new fiber and its first turn. -/
theorem step_start (hrunning : s.worker.isRunning = false) (now : Clock) :
    s.step (.start now) = s.spawn.step (.turn s.worker.fibers.length now) := by
  have hlast : s.spawn.worker.fibers[s.worker.fibers.length]? = some .awake := by simp [spawn]
  rw [step_turn hlast]
  simp [step, stepStats, TtlWorker.step, TtlWorker.start, hrunning, spawn]

theorem step_start_running (hrunning : s.worker.isRunning = true) (now : Clock) :
    s.step (.start now) = s := by
  simp [step, stepStats, TtlWorker.step, TtlWorker.start, hrunning]

theorem counted_spawn (space : DrainedSpace) : s.spawn.counted space = s.counted space := by
  simp [counted, spawn, underway, Cleaner.underway]

theorem sized_spawn (hs : s.Sized) : s.spawn.Sized := by
  intro w hw
  rcases List.mem_append.1 hw with hw | hw
  · exact hs w hw
  · rw [List.mem_singleton.1 hw]
    trivial

theorem tidy_spawn (hstopped : ∀ w ∈ s.worker.fibers, w = .stopped) : s.spawn.Tidy := by
  constructor
  · -- the new fiber is the only one in its loop
    have hlast : ∀ (i : ℕ) (w : Cleaner), s.spawn.worker.fibers[i]? = some w → w ≠ .stopped →
        i = s.worker.fibers.length := by
      intro i w hw hloop
      by_contra hne
      rcases Nat.lt_or_gt_of_ne hne with hlt | hgt
      · rw [spawn, List.getElem?_append_left hlt] at hw
        exact hloop (hstopped w (List.mem_of_getElem? hw))
      · rw [spawn, List.getElem?_eq_none (by simp; omega)] at hw
        cases hw
    intro i j w w' hw hw' hloop hloop'
    rw [hlast i w hw hloop, hlast j w' hw' hloop']
  · intro w hw
    rcases List.mem_append.1 hw with hw | hw
    · rw [hstopped w hw]
      trivial
    · rw [List.mem_singleton.1 hw]
      trivial

/-! ### Any step -/

theorem sized_step (hs : s.Sized) (a : TtlAction) : (s.step a).Sized := by
  cases a with
  | start now =>
    cases hrunning : s.worker.isRunning with
    | false =>
      rw [step_start hrunning]
      exact sized_turn (sized_spawn hs) _ now
    | true =>
      rw [step_start_running hrunning]
      exact hs
  | turn i now => exact sized_turn hs i now
  | stop => exact hs
  | others b => exact hs

/-- **One step.** -/
theorem keeps_step (hs : s.Sized) (a : TtlAction) : s.Keeps a := by
  cases a with
  | start now =>
    cases hrunning : s.worker.isRunning with
    | false =>
      intro space
      have hturn := keeps_turn (sized_spawn hs) s.worker.fibers.length now space
      have hremoved : s.removed space (.start now) =
          s.spawn.removed space (.turn s.worker.fibers.length now) := by
        show _ - (s.step (.start now)).worker.box.count space = _
        rw [step_start hrunning]
        rfl
      rw [hremoved, step_start hrunning, ← counted_spawn]
      refine ⟨hturn.1, fun hfinds => hturn.2 fun w hw => ?_⟩
      rcases List.mem_append.1 hw with hw | hw
      · exact hfinds w hw
      · rw [List.mem_singleton.1 hw]
        trivial
    | true => exact keeps_of_eq (step_start_running hrunning now)
  | turn i now => exact keeps_turn hs i now
  | stop =>
    intro space
    have hremoved : s.removed space .stop = 0 := Nat.sub_self (s.worker.box.count space)
    have hcounted : (s.step .stop).counted space = s.counted space := rfl
    rw [hremoved, hcounted]
    omega
  | others b =>
    intro space
    have hremoved : s.removed space (.others b) = 0 := rfl
    have hcounted : (s.step (.others b)).counted space = s.counted space := rfl
    rw [hremoved, hcounted]
    omega

/-- **One step of a worker that is left alone.** -/
theorem tidy_step (hs : s.Sized) (h : s.Tidy) (ha : s.Undisturbed a) : (s.step a).Tidy := by
  cases a with
  | start now =>
    cases hrunning : s.worker.isRunning with
    | false =>
      rw [step_start hrunning]
      exact tidy_turn (sized_spawn hs) (tidy_spawn (ha hrunning)) _ now
    | true =>
      rw [step_start_running hrunning]
      exact h
  | turn i now => exact tidy_turn hs h i now
  | stop => exact h
  | others b =>
    refine ⟨h.1, fun w hw => ?_⟩
    have hfinds := h.2 w hw
    cases w with
    | deleting t space later keys size purged =>
      exact ⟨hfinds.1, fun key hkey => ha space key (hfinds.2 key hkey)⟩
    | _ => trivial

/-! ## Runs -/

theorem sized_init (b : Box) : (init b).Sized := by
  intro w hw
  cases hw

theorem tidy_init (b : Box) : (init b).Tidy := by
  refine ⟨TtlWorker.init_oneInLoop b, fun w hw => ?_⟩
  cases hw

theorem counted_init (b : Box) (space : DrainedSpace) : (init b).counted space = 0 := by
  simp [counted, init, underway, TtlWorker.init]

/-- The counts keep up with the tuples the cleaners remove. -/
theorem removed_le_counted (b : Box) (l : List TtlAction) (space : DrainedSpace) :
    total step (removed space) (init b) l ≤ (run step (init b) l).counted space := by
  have hstep : ∀ (s : CountedWorker) (a : TtlAction), s.Sized → True →
      (s.step a).Sized ∧ s.removed space a + s.counted space ≤ (s.step a).counted space :=
    fun s a hs _ => ⟨sized_step hs a, (keeps_step hs a space).1⟩
  have h := total_add_le_run hstep (sized_init b)
    (AllSteps.trivial (P := fun _ _ => True) (fun _ _ => trivial) (init b) l)
  rwa [counted_init, add_zero] at h

theorem removed_eq_counted (b : Box) {l : List TtlAction}
    (hl : AllSteps step Undisturbed (init b) l) (space : DrainedSpace) :
    total step (removed space) (init b) l = (run step (init b) l).counted space := by
  have hstep : ∀ (s : CountedWorker) (a : TtlAction), s.Sized ∧ s.Tidy → s.Undisturbed a →
      ((s.step a).Sized ∧ (s.step a).Tidy) ∧
        (s.step a).counted space = s.counted space + s.removed space a := by
    intro s a hs ha
    refine ⟨⟨sized_step hs.1 a, tidy_step hs.1 hs.2 ha⟩, ?_⟩
    rw [add_comm]
    exact ((keeps_step hs.1 a space).2 hs.2.2).symm
  have h := run_potential hstep ⟨sized_init b, tidy_init b⟩ hl
  rw [counted_init, zero_add] at h
  exact h.symm

end CountedWorker

/-- **What `get_stats` says.**  In every run of starts, stops, turns of the cleaners and whatever
else happens to the spaces, the counter of a space and the deletes of the drains that are going on
are at least the tuples of the space that the cleaners have removed.  They are that number, if only
one cleaner at a time is in its loop and no other fiber deletes anything. -/
theorem purged_counts_removed (b : Box) (l : List TtlAction) (space : DrainedSpace) :
    total CountedWorker.step (CountedWorker.removed space) (.init b) l ≤
        (run CountedWorker.step (.init b) l).getStats.purged space +
          (run CountedWorker.step (.init b) l).underway space ∧
      (AllSteps CountedWorker.step CountedWorker.Undisturbed (.init b) l →
        total CountedWorker.step (CountedWorker.removed space) (.init b) l =
          (run CountedWorker.step (.init b) l).getStats.purged space +
            (run CountedWorker.step (.init b) l).underway space) :=
  ⟨CountedWorker.removed_le_counted b l space, fun hl => CountedWorker.removed_eq_counted b hl space⟩

/-- A registration that has expired. -/
def expiredContact : Box :=
  { Box.init with kamUsrloc := KeyedTable.empty.put ⟨ascii "alice", 0⟩ }

/-- A worker that is started at a time, and whose cleaner gets through its first sweep. -/
def firstSweep (now : Clock) : List TtlAction := [.start now, .turn 0 now, .turn 0 now]

theorem startTime_lt : 1700000000 < 2 ^ 63 := by decide

/-- The first sweep counts the registration. -/
theorem purged_counts_removed_firstSweep :
    (run CountedWorker.step (.init expiredContact)
      (firstSweep (.ofSeconds 1700000000 startTime_lt))).getStats.purged .kamUsrloc = 1 := by
  have hundisturbed : AllSteps CountedWorker.step CountedWorker.Undisturbed (.init expiredContact)
      (firstSweep (.ofSeconds 1700000000 startTime_lt)) := by
    refine ⟨fun _ w hw => ?_, trivial, trivial, trivial⟩
    cases hw
  have hcount := (purged_counts_removed expiredContact _ .kamUsrloc).2 hundisturbed
  have hremoved : total CountedWorker.step (CountedWorker.removed .kamUsrloc)
      (.init expiredContact) (firstSweep (.ofSeconds 1700000000 startTime_lt)) = 1 := by
    decide +kernel
  have hunderway : (run CountedWorker.step (.init expiredContact)
      (firstSweep (.ofSeconds 1700000000 startTime_lt))).underway .kamUsrloc = 0 := by
    decide +kernel
  omega

end VoipBackend
