import VoipBackend.Backend.Billing

/-!
# The TTL cleaner

`app/ttl_worker.lua`: a fiber that wakes up at intervals and drains the expired
tuples of three spaces, one batch of keys at a time.  A batch is collected in one
stretch and then deleted key by key; the fiber may be suspended after every delete,
yields after the batch, and looks at the index again.

`purged` is the count `drain_space` returns; what the worker adds up for `get_stats` is in
`CleanerStats`.
-/

namespace VoipBackend

open Library

/-- The spaces with an index `by_expire`. -/
inductive DrainedSpace where
  | rtpeCalls
  | kamDialogs
  | kamUsrloc
  deriving DecidableEq

/-- The order in which a sweep drains them. -/
def sweepOrder : List DrainedSpace := [.rtpeCalls, .kamDialogs, .kamUsrloc]

/-- The keys of one batch: the index is read downwards from `now`, for at most 500
tuples. -/
def batchOf {τ : Type} {key : τ → LuaString} (t : KeyedTable key) (expiresAt : τ → ℕ) (now : ℕ) :
    List LuaString :=
  (((t.scanAsc expiresAt).reverse.filter fun r => decide (expiresAt r ≤ now)).take 500).map key

/-- `expired_keys` of a space. -/
def Box.expiredKeys (b : Box) (now : ℕ) : DrainedSpace → List LuaString
  | .rtpeCalls => batchOf b.rtpeCalls RtpeCall.expiresAt now
  | .kamDialogs => batchOf b.kamDialogs Dialog.expiresAt now
  | .kamUsrloc => batchOf b.kamUsrloc UsrLoc.expiresAt now

/-- `space:delete(key)`. -/
def Box.deleteFrom (b : Box) (key : LuaString) : DrainedSpace → Box
  | .rtpeCalls => b.deleteCall key
  | .kamDialogs => b.deleteDialog key
  | .kamUsrloc => { b with kamUsrloc := b.kamUsrloc.delete key }

/-! ## A space drained at a stretch -/

/-- The tuples of a space. -/
def Box.count (b : Box) : DrainedSpace → ℕ
  | .rtpeCalls => b.rtpeCalls.rows.length
  | .kamDialogs => b.kamDialogs.rows.length
  | .kamUsrloc => b.kamUsrloc.rows.length

/-- `for _, key in ipairs(expired_keys) do space:delete(key) end`. -/
def Box.deleteKeys (b : Box) (space : DrainedSpace) (keys : List LuaString) : Box :=
  keys.foldl (fun b key => b.deleteFrom key space) b

/-- The loop of `drain_space` while `is_running` is set, for a number of rounds. -/
def drainRounds (now : ℕ) (space : DrainedSpace) : ℕ → ℕ → Box → ℕ × Box
  | 0, purged, b => (purged, b)
  | rounds + 1, purged, b =>
      match b.expiredKeys now space with
      | [] => (purged, b)
      | key :: keys =>
          drainRounds now space rounds (purged + (keys.length + 1)) (b.deleteKeys space (key :: keys))

/-- `drain_space` with no other fiber in between: the count it returns and the spaces it
leaves.  Every round but the last deletes a tuple, so one round more than there are
tuples is enough. -/
def drainSpace (now : ℕ) (space : DrainedSpace) (b : Box) : ℕ × Box :=
  drainRounds now space (b.count space + 1) 0 b

/-- A sweep with no other fiber in between. -/
def sweep (now : Clock) (b : Box) : Box :=
  sweepOrder.foldl (fun b space => (drainSpace now.epoch space b).2) b

/-! ## The fiber -/

/-- Where the cleaner fiber is. -/
inductive Cleaner where
  /-- At the head of its loop: just created, or asleep. -/
  | awake
  /-- In `drain_space`, with the rest of a batch to delete. -/
  | deleting (now : ℕ) (space : DrainedSpace) (later : List DrainedSpace)
      (keys : List LuaString) (size purged : ℕ)
  /-- In `fiber.yield()`, after a batch. -/
  | yielding (now : ℕ) (space : DrainedSpace) (later : List DrainedSpace) (purged : ℕ)
  /-- Out of its loop. -/
  | stopped

/-- The rest of a sweep, from the head of the loop of `drain_space` on its first space
up to the next suspension: the first delete of a batch, or the sleep after the sweep. -/
def drainSpaces (isRunning : Bool) (now : ℕ) (b : Box) :
    ℕ → List DrainedSpace → Cleaner × Box
  | _, [] => (.awake, b)
  | purged, space :: later =>
      match if isRunning then b.expiredKeys now space else [] with
      | [] => drainSpaces isRunning now b 0 later
      | key :: keys =>
          (.deleting now space later keys (keys.length + 1) purged, b.deleteFrom key space)

/-- The cleaner fiber from one suspension to the next. -/
def Cleaner.resume (now : Clock) (isRunning : Bool) : Cleaner → Box → Cleaner × Box
  | .awake, b =>
      if isRunning then drainSpaces isRunning now.epoch b 0 sweepOrder else (.stopped, b)
  | .deleting t space later [] size purged, b => (.yielding t space later (purged + size), b)
  | .deleting t space later (key :: keys) size purged, b =>
      (.deleting t space later keys size purged, b.deleteFrom key space)
  | .yielding t space later purged, b => drainSpaces isRunning t b purged (space :: later)
  | .stopped, b => (.stopped, b)

/-! ## What a turn of the cleaner does -/

/-- The rest of a sweep, to the next suspension: nothing is left to drain, or a batch is
collected and its first key deleted. -/
theorem drainSpaces_collects (isRunning : Bool) (now : ℕ) (b : Box) (purged : ℕ)
    (spaces : List DrainedSpace) :
    drainSpaces isRunning now b purged spaces = (.awake, b) ∨
      ∃ space later key keys size purged', b.expiredKeys now space = key :: keys ∧
        drainSpaces isRunning now b purged spaces =
          (.deleting now space later keys size purged', b.deleteFrom key space) := by
  induction spaces generalizing purged with
  | nil => exact Or.inl rfl
  | cons space later ih =>
    rw [drainSpaces]
    split
    · exact ih 0
    · next key keys hkeys =>
      cases isRunning with
      | false => cases hkeys
      | true => exact Or.inr ⟨space, later, key, keys, _, purged, hkeys, rfl⟩

theorem drainSpaces_cases (isRunning : Bool) (now : ℕ) (b : Box) (purged : ℕ)
    (spaces : List DrainedSpace) :
    (drainSpaces isRunning now b purged spaces).2 = b ∨
      ∃ key space, (drainSpaces isRunning now b purged spaces).2 = b.deleteFrom key space := by
  rcases drainSpaces_collects isRunning now b purged spaces with h |
    ⟨space, later, key, keys, size, purged', -, h⟩
  · rw [h]
    exact Or.inl rfl
  · rw [h]
    exact Or.inr ⟨key, space, rfl⟩

/-- **Everything a turn of the cleaner can do to the spaces.**  It leaves them alone or
deletes one tuple. -/
theorem Cleaner.resume_cases (now : Clock) (isRunning : Bool) (w : Cleaner) (b : Box) :
    (w.resume now isRunning b).2 = b ∨
      ∃ key space, (w.resume now isRunning b).2 = b.deleteFrom key space := by
  cases w with
  | awake =>
    rw [resume]
    split_ifs
    · exact drainSpaces_cases isRunning now.epoch b 0 sweepOrder
    · exact Or.inl rfl
  | deleting t space later keys size purged =>
    cases keys with
    | nil => exact Or.inl rfl
    | cons key keys => exact Or.inr ⟨key, space, rfl⟩
  | yielding t space later purged => exact drainSpaces_cases isRunning t b purged (space :: later)
  | stopped => exact Or.inl rfl

end VoipBackend
