import VoipBackend.Backend.Sweep

/-!
# Draining a space among other fibers

`drain_space` is suspended after every delete and after every batch, and meanwhile the
other fibers may do what they like.  As long as they leave the drained space alone and
the worker is not stopped, the loop comes to an end, the space keeps exactly its live
tuples, and the count that is returned is the number of tuples removed
(`drain_space_removes_expired`).

`turns_of_drains` ties the loop to the turns of the cleaner fiber, and
`reaches_awake` puts the loops of a sweep together: a cleaner that is not stopped gets
back to the head of its own loop.
-/

namespace VoipBackend

open Library

/-- The same tuples in a space. -/
def Box.SameIn (b b' : Box) : DrainedSpace → Prop
  | .rtpeCalls => b.rtpeCalls = b'.rtpeCalls
  | .kamDialogs => b.kamDialogs = b'.kamDialogs
  | .kamUsrloc => b.kamUsrloc = b'.kamUsrloc

section Loop

-- what the other fibers may make of the spaces while the cleaner is suspended
variable (others : Box → Box → Prop)

/-- `for _, key in ipairs(expired_keys) do space:delete(key) end`, followed by
`fiber.yield()`. -/
inductive DeletesKeys (space : DrainedSpace) : List LuaString → Box → Box → Prop
  | yield {b b' : Box} (h : others b b') : DeletesKeys space [] b b'
  | delete {key : LuaString} {keys : List LuaString} {b b₁ b' : Box}
      (h : others (b.deleteFrom key space) b₁) (hrest : DeletesKeys space keys b₁ b') :
      DeletesKeys space (key :: keys) b b'

/-- One round of the loop of `drain_space` that finds a batch. -/
def Round (now : ℕ) (space : DrainedSpace) (b b' : Box) : Prop :=
  ∃ key keys, b.expiredKeys now space = key :: keys ∧
    DeletesKeys others space (key :: keys) b b'

/-- The loop of `drain_space` while `is_running` is set, from the count and the spaces it
finds to the count it returns and the spaces it leaves. -/
inductive Drains (now : ℕ) (space : DrainedSpace) : ℕ → Box → ℕ → Box → Prop
  | finish {purged : ℕ} {b : Box} (h : b.expiredKeys now space = []) :
      Drains now space purged b purged b
  | round {purged n : ℕ} {key : LuaString} {keys : List LuaString} {b b₁ b' : Box}
      (h : b.expiredKeys now space = key :: keys)
      (hdel : DeletesKeys others space (key :: keys) b b₁)
      (hrest : Drains now space (purged + (keys.length + 1)) b₁ n b') :
      Drains now space purged b n b'

/-- A turn of the cleaner, after what the other fibers did since its last one. -/
def TurnAmid (now : Clock) (p p' : Cleaner × Box) : Prop :=
  ∃ b, others p.2 b ∧ p' = p.1.resume now true b

end Loop

/-! ## The drained space -/

namespace Box

variable {b b' b'' : Box} {now : ℕ} {space : DrainedSpace}

theorem SameIn.refl (b : Box) (space : DrainedSpace) : b.SameIn b space := by
  cases space <;> rfl

theorem SameIn.trans (h : b.SameIn b' space) (h' : b'.SameIn b'' space) :
    b.SameIn b'' space := by
  cases space <;> exact Eq.trans h h'

theorem SameIn.count_eq (h : b.SameIn b' space) : b.count space = b'.count space := by
  cases space <;> exact congrArg (fun t => t.rows.length) h

theorem SameIn.deleteFrom (h : b.SameIn b' space) (key : LuaString) :
    (b.deleteFrom key space).SameIn (b'.deleteFrom key space) space := by
  cases space <;> exact congrArg (fun t => t.delete key) h

theorem SameIn.deleteKeys (h : b.SameIn b' space) (keys : List LuaString) :
    (b.deleteKeys space keys).SameIn (b'.deleteKeys space keys) space := by
  induction keys generalizing b b' with
  | nil => exact h
  | cons key keys ih => exact ih (h.deleteFrom key)

theorem SameIn.keepLive (h : b.SameIn b' space) (now : ℕ) :
    (b.keepLive now space).SameIn (b'.keepLive now space) space := by
  cases space <;>
    · rw [SameIn] at h
      simp only [SameIn, Box.keepLive, h]

end Box

/-! ## The loop -/

section Laws

variable {others : Box → Box → Prop} {now : ℕ} {space : DrainedSpace}

/-- With the others away from the space, the batch is deleted from it and nothing else
happens to it. -/
theorem sameIn_of_deletesKeys (hothers : ∀ b b', others b b' → b.SameIn b' space)
    {keys : List LuaString} {b b' : Box} (h : DeletesKeys others space keys b b') :
    (b.deleteKeys space keys).SameIn b' space := by
  induction h with
  | yield h => exact hothers _ _ h
  | delete h hrest ih => exact ((hothers _ _ h).deleteKeys _).trans ih

/-- **What a round does to the space.** -/
theorem round_spec (hothers : ∀ b b', others b b' → b.SameIn b' space) {b b' : Box}
    (h : DeletesKeys others space (b.expiredKeys now space) b b') :
    (b.keepLive now space).SameIn (b'.keepLive now space) space ∧
      b'.count space + (b.expiredKeys now space).length = b.count space := by
  have hsame := sameIn_of_deletesKeys hothers h
  constructor
  · rw [← keepLive_deleteKeys]
    exact hsame.keepLive now
  · rw [← hsame.count_eq]
    exact count_deleteKeys_add b now space

/-- **What the loop leaves and returns.** -/
theorem drains_spec (hothers : ∀ b b', others b b' → b.SameIn b' space) {purged n : ℕ}
    {b b' : Box} (h : Drains others now space purged b n b') :
    (b.keepLive now space).SameIn b' space ∧ n + b'.count space = purged + b.count space := by
  induction h with
  | finish h =>
    rw [keepLive_of_expiredKeys_nil h]
    exact ⟨Box.SameIn.refl _ _, rfl⟩
  | round h hdel hrest ih =>
    obtain ⟨hlive, hcount⟩ := round_spec hothers (h ▸ hdel)
    rw [h, List.length_cons] at hcount
    exact ⟨hlive.trans ih.1, by omega⟩

/-- **The loop ends.**  Every round leaves fewer tuples in the space. -/
theorem wellFounded_round (hothers : ∀ b b', others b b' → b.SameIn b' space) (now : ℕ) :
    WellFounded fun b' b => Round others now space b b' := by
  refine Subrelation.wf (fun {b' b} hround => ?_) (measure fun b : Box => b.count space).wf
  obtain ⟨key, keys, hkeys, hdel⟩ := hround
  have hcount := (round_spec hothers (hkeys ▸ hdel)).2
  rw [hkeys, List.length_cons] at hcount
  show b'.count space < b.count space
  omega

/-- Nothing keeps a fiber from deleting its batch. -/
theorem exists_deletesKeys (hrefl : ∀ b, others b b) (keys : List LuaString) (b : Box) :
    ∃ b', DeletesKeys others space keys b b' := by
  induction keys generalizing b with
  | nil => exact ⟨b, .yield (hrefl b)⟩
  | cons key keys ih =>
    obtain ⟨b', hrest⟩ := ih (b.deleteFrom key space)
    exact ⟨b', .delete (hrefl _) hrest⟩

theorem exists_drains (hothers : ∀ b b', others b b' → b.SameIn b' space)
    (hrefl : ∀ b, others b b) (now purged : ℕ) (b : Box) :
    ∃ n b', Drains others now space purged b n b' := by
  induction b using (wellFounded_round hothers now).induction generalizing purged with
  | _ b ih =>
    cases hkeys : b.expiredKeys now space with
    | nil => exact ⟨purged, b, .finish hkeys⟩
    | cons key keys =>
      obtain ⟨b₁, hdel⟩ := exists_deletesKeys hrefl (key :: keys) b
      obtain ⟨n, b', hrest⟩ := ih b₁ ⟨key, keys, hkeys, hdel⟩ (purged + (keys.length + 1))
      exact ⟨n, b', .round hkeys hdel hrest⟩

end Laws

/-! ## The fiber -/

section Fiber

variable {others : Box → Box → Prop} {now : Clock} {t : ℕ} {space : DrainedSpace}
  {later : List DrainedSpace}

/-- The turns of a fiber that has a batch to delete, up to its next look at the index. -/
theorem turns_of_deletesKeys {keys : List LuaString} {b b₀ b' : Box} (size purged : ℕ)
    (hb : others b₀ b) (h : DeletesKeys others space keys b b') :
    Relation.ReflTransGen (TurnAmid others now)
      (.deleting t space later keys size purged, b₀)
      (drainSpaces true t b' (purged + size) (space :: later)) := by
  induction h generalizing b₀ with
  | yield h =>
    refine .tail (.single ⟨_, hb, rfl⟩) ⟨_, h, rfl⟩
  | delete h hrest ih =>
    exact .head ⟨_, hb, rfl⟩ (ih h)

/-- **The loop and the fiber.**  What the loop does, the turns of the fiber do, from where
it enters the loop to where it goes on to the next space. -/
theorem turns_of_drains {purged n : ℕ} {b b' : Box}
    (h : Drains others t space purged b n b') :
    Relation.ReflTransGen (TurnAmid others now)
      (drainSpaces true t b purged (space :: later)) (drainSpaces true t b' 0 later) := by
  induction h with
  | finish h =>
    rw [drainSpaces, if_pos rfl, h]
  | @round purged n key keys b b₁ b' h hdel hrest ih =>
    have henter : drainSpaces true t b purged (space :: later) =
        (.deleting t space later keys (keys.length + 1) purged, b.deleteFrom key space) := by
      rw [drainSpaces, if_pos rfl, h]
    cases hdel with
    | delete hfirst hkeys =>
      rw [henter]
      exact (turns_of_deletesKeys _ _ hfirst hkeys).trans ih

end Fiber

/-! ## A fiber on its own -/

theorem deletesKeys_deleteKeys (space : DrainedSpace) (keys : List LuaString) (b : Box) :
    DeletesKeys Eq space keys b (b.deleteKeys space keys) := by
  induction keys generalizing b with
  | nil => exact .yield rfl
  | cons key keys ih => exact .delete rfl (ih _)

theorem drains_drainRounds {now : ℕ} {space : DrainedSpace} {rounds : ℕ} {b : Box}
    (h : b.count space < rounds) (purged : ℕ) :
    Drains Eq now space purged b (drainRounds now space rounds purged b).1
      (drainRounds now space rounds purged b).2 := by
  induction rounds generalizing b purged with
  | zero => omega
  | succ rounds ih =>
    rw [drainRounds]
    cases hkeys : b.expiredKeys now space with
    | nil => exact .finish hkeys
    | cons key keys =>
      have hcount := count_deleteKeys_add b now space
      rw [hkeys, List.length_cons] at hcount
      exact .round hkeys (deletesKeys_deleteKeys _ _ _) (ih (by omega) _)

/-- `drain_space` at a stretch is one way for the loop to go. -/
theorem drains_drainSpace (now : ℕ) (space : DrainedSpace) (b : Box) :
    Drains Eq now space 0 b (drainSpace now space b).1 (drainSpace now space b).2 :=
  drains_drainRounds (Nat.lt_succ_self _) 0

/-- The rest of a sweep, for a fiber that takes all the turns. -/
theorem turns_of_drainSpaces (now : Clock) (t : ℕ) (spaces : List DrainedSpace) (b : Box) :
    Relation.ReflTransGen (TurnAmid Eq now) (drainSpaces true t b 0 spaces)
      (.awake, spaces.foldl (fun b space => (drainSpace t space b).2) b) := by
  induction spaces generalizing b with
  | nil => exact .refl
  | cons space later ih =>
    exact (turns_of_drains (drains_drainSpace t space b)).trans (ih _)

/-- **A sweep.**  A fiber that takes all the turns leaves what the sweep leaves, and is
back at the head of its loop. -/
theorem turns_of_sweep (now : Clock) (b : Box) :
    Relation.ReflTransGen (TurnAmid Eq now) (.awake, b) (.awake, sweep now b) :=
  .head ⟨b, rfl, rfl⟩ (turns_of_drainSpaces now now.epoch sweepOrder b)

/-- A fiber in the middle of a sweep, or before one, gets to the head of its loop. -/
theorem reaches_awake (now : Clock) {w : Cleaner} (hw : w ≠ .stopped) (b : Box) :
    ∃ b', Relation.ReflTransGen (TurnAmid Eq now) (w, b) (.awake, b') := by
  have hrest : ∀ t purged space later b, ∃ b', Relation.ReflTransGen (TurnAmid Eq now)
      (drainSpaces true t b purged (space :: later)) (.awake, b') := by
    intro t purged space later b
    have halone : ∀ b b' : Box, b = b' → b.SameIn b' space :=
      fun b b' h => h ▸ Box.SameIn.refl b space
    obtain ⟨n, b₁, hdrains⟩ := exists_drains halone (fun _ => rfl) t purged b
    exact ⟨_, (turns_of_drains hdrains).trans (turns_of_drainSpaces now t later b₁)⟩
  cases w with
  | awake => exact ⟨b, .refl⟩
  | deleting t space later keys size purged =>
    obtain ⟨b', hawake⟩ := hrest t (purged + size) space later (b.deleteKeys space keys)
    have hdel := deletesKeys_deleteKeys space keys b
    exact ⟨b', (turns_of_deletesKeys size purged rfl hdel).trans hawake⟩
  | yielding t space later purged =>
    obtain ⟨b', hawake⟩ := hrest t purged space later b
    exact ⟨b', .head ⟨b, rfl, rfl⟩ hawake⟩
  | stopped => exact absurd rfl hw

/-! ## Away from the space -/

/-- The other fibers do not touch a space. -/
def AwayFrom (space : DrainedSpace) (b b' : Box) : Prop := b.SameIn b' space

/-- **What `drain_space` does.**  With the other fibers away from the space, the loop does
not go on for ever and does not get stuck; whichever way it goes, the space keeps exactly
its live tuples, and the count that is returned is the number of tuples removed. -/
theorem drain_space_removes_expired (now : ℕ) (space : DrainedSpace) (b : Box) :
    Acc (fun b' b => Round (AwayFrom space) now space b b') b ∧
      (∃ n b', Drains (AwayFrom space) now space 0 b n b') ∧
      ∀ n b', Drains (AwayFrom space) now space 0 b n b' →
        (b.keepLive now space).SameIn b' space ∧ n + b'.count space = b.count space := by
  have haway : ∀ b b', AwayFrom space b b' → b.SameIn b' space := fun _ _ h => h
  refine ⟨(wellFounded_round haway now).apply b,
    exists_drains haway (fun b => Box.SameIn.refl b space) now 0 b, fun n b' h => ?_⟩
  obtain ⟨hlive, hcount⟩ := drains_spec haway h
  exact ⟨hlive, by omega⟩

end VoipBackend
