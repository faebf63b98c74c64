import VoipBackend.Lib.Execution
import VoipBackend.Lib.Mutex

/-!
# The connection pool of the Asterisk module

The locks of `res_tarantool.c`: the list of profiles has one, each profile has one, each
connection of its pool has one.  `ast_tarantool_acquire_conn` tries the connections one after
another while it holds the lock of the profile, and if it gets none of them it waits for the first
one, and still holds the lock of the profile.  `realtime_tarantool` acquires two connections: its
own, and in `ast_tarantool_call` another one, or the same again.

Whoever waits for the first connection stops all other threads from acquiring one.  If the one
it waits for is among them, none of them goes on (`never_stuck`).
-/

namespace VoipBackend

open Library

namespace Asterisk

namespace Pool

/-- What a thread calls. -/
inductive Job where
  /-- `realtime_tarantool`. -/
  | realtime
  /-- `ast_tarantool_call` alone. -/
  | call
  deriving DecidableEq

/-- The locks, for a pool of `n + 1` connections. -/
inductive Lock (n : ℕ) where
  /-- `profiles_lock`. -/
  | profiles
  /-- `prof->lock`. -/
  | prof
  /-- `prof->sockets[i].lock`. -/
  | socket (i : Fin (n + 1))
  deriving DecidableEq

/-- The places in `ast_tarantool_acquire_conn`, each before what it is named for. -/
inductive Acquire (n : ℕ) where
  | lockProfiles
  | lockProf
  | unlockProfiles
  /-- The test of the loop, and `ast_mutex_trylock`. -/
  | tryNext (i : ℕ)
  /-- The lock of connection `i` is taken; is it connected, or can it be connected? -/
  | connect (i : Fin (n + 1))
  /-- It is not, and its lock is given back. -/
  | giveBack (i : Fin (n + 1))
  /-- "Fallback: block on first socket". -/
  | fallback
  | connectFirst
  | unlockProf (i : Fin (n + 1))
  deriving DecidableEq

/-- Where a thread is in its job. -/
inductive Place (n : ℕ) where
  | ready
  | acquire (a : Acquire n)
  /-- The request is written and its response is read. -/
  | exec
  /-- `ast_tarantool_release_conn`, for each connection acquired. -/
  | release
  deriving DecidableEq

/-- A thread: its jobs, the current one first, and the connections it has acquired, the last one
first. -/
structure Thread (n : ℕ) where
  jobs : List Job
  held : List (Fin (n + 1))
  place : Place n
  deriving DecidableEq

variable {n : ℕ}

/-- What a thread does with the locks. -/
inductive Op (n : ℕ) where
  | skip
  | lock (k : Lock n)
  /-- `ast_mutex_trylock`, and what becomes of the thread if the lock is taken. -/
  | tryLock (k : Lock n) (busy : Thread n)
  | unlock (k : Lock n)

def Thread.at (th : Thread n) (place : Place n) : Thread n := { th with place := place }

/-- The thread has got connection `i`: `realtime_tarantool` goes on with its second one. -/
def Thread.acquired (th : Thread n) (job : Job) (i : Fin (n + 1)) : Thread n :=
  { th with
    held := i :: th.held
    place := if job = .realtime ∧ th.held = [] then .acquire .lockProfiles else .exec }

/-- `ast_tarantool_acquire_conn`.  `connects` says whether a connection is usable, or can be made
so. -/
def acquireConn (th : Thread n) (job : Job) (connects : Bool) : Acquire n → Op n × Thread n
  | .lockProfiles => (.lock .profiles, th.at (.acquire .lockProf))
  | .lockProf => (.lock .prof, th.at (.acquire .unlockProfiles))
  | .unlockProfiles => (.unlock .profiles, th.at (.acquire (.tryNext 0)))
  | .tryNext i =>
      if h : i < n + 1 then
        (.tryLock (.socket ⟨i, h⟩) (th.at (.acquire (.tryNext (i + 1)))),
          th.at (.acquire (.connect ⟨i, h⟩)))
      else (.skip, th.at (.acquire .fallback))
  | .connect i =>
      if connects then (.skip, th.at (.acquire (.unlockProf i)))
      else (.skip, th.at (.acquire (.giveBack i)))
  | .giveBack i => (.unlock (.socket i), th.at (.acquire (.tryNext (i + 1))))
  | .fallback => (.lock (.socket 0), th.at (.acquire .connectFirst))
  | .connectFirst => (.skip, th.at (.acquire (.unlockProf 0)))
  | .unlockProf i => (.unlock .prof, th.acquired job i)

/-- What a thread does next, if it is not finished. -/
def Thread.next (th : Thread n) (connects : Bool) : Option (Op n × Thread n) :=
  match th.jobs with
  | [] => none
  | job :: jobs =>
      match th.place with
      | .ready => some (.skip, th.at (.acquire .lockProfiles))
      | .acquire a => some (acquireConn th job connects a)
      | .exec => some (.skip, th.at .release)
      | .release =>
          match th.held with
          | [] => some (.skip, ⟨jobs, [], .ready⟩)
          | i :: held => some (.unlock (.socket i), ⟨job :: jobs, held, .release⟩)

/-! ## Threads and locks -/

/-- The locks and the threads. -/
structure State (T : Type) (n : ℕ) where
  locks : Lock n → Mutex T
  threads : T → Thread n

variable {T : Type} [DecidableEq T]

/-- The thread that takes the step, and whether it finds its connection usable. -/
abbrev Action (T : Type) : Type := T × Bool

def State.put (s : State T n) (t : T) (th : Thread n) : State T n :=
  { s with threads := Function.update s.threads t th }

def State.putLock (s : State T n) (k : Lock n) (m : Mutex T) : State T n :=
  { s with locks := Function.update s.locks k m }

/-- One step of a thread; none if it is finished, or has to wait. -/
def State.step (s : State T n) (a : Action T) : Option (State T n) :=
  match (s.threads a.1).next a.2 with
  | none => none
  | some (.skip, th) => some (s.put a.1 th)
  | some (.lock k, th) => ((s.locks k).lock a.1).map fun m => (s.putLock k m).put a.1 th
  | some (.tryLock k busy, th) =>
      match (s.locks k).lock a.1 with
      | none => some (s.put a.1 busy)
      | some m => some ((s.putLock k m).put a.1 th)
  | some (.unlock k, th) => some ((s.putLock k ((s.locks k).unlock a.1)).put a.1 th)

/-- The turn of a thread: nothing happens if it cannot take a step. -/
def State.turn (s : State T n) (a : Action T) : State T n := (s.step a).getD s

/-- All locks are free, and every thread is about to start its first job. -/
def start (n : ℕ) (jobs : T → List Job) : State T n :=
  ⟨fun _ => .free, fun t => ⟨jobs t, [], .ready⟩⟩

/-- A thread can take a step. -/
def State.CanStep (s : State T n) (t : T) : Prop := ∃ connects, (s.step (t, connects)).isSome

instance (s : State T n) (t : T) : Decidable (s.CanStep t) :=
  inferInstanceAs (Decidable (∃ connects, (s.step (t, connects)).isSome))

/-- If there is an unfinished thread, one of them can take a step. -/
def State.Live (s : State T n) : Prop :=
  (∃ t, (s.threads t).jobs ≠ []) → ∃ t, (s.threads t).jobs ≠ [] ∧ s.CanStep t

/-! ## The locks a thread holds -/

/-- The locks a thread holds at a place, but for those of the connections it has acquired; the last
one first. -/
def Place.locks : Place n → List (Lock n)
  | .acquire .lockProf => [.profiles]
  | .acquire .unlockProfiles => [.prof, .profiles]
  | .acquire (.tryNext _) => [.prof]
  | .acquire (.connect i) => [.socket i, .prof]
  | .acquire (.giveBack i) => [.socket i, .prof]
  | .acquire .fallback => [.prof]
  | .acquire .connectFirst => [.socket 0, .prof]
  | .acquire (.unlockProf i) => [.socket i, .prof]
  | _ => []

/-- The locks a thread holds, each as often as it has taken it. -/
def Thread.locks (th : Thread n) : List (Lock n) := th.place.locks ++ th.held.map .socket

/-- What a thread does with the locks is what becomes of the locks it holds. -/
def Op.Fits (th : Thread n) : Op n × Thread n → Prop
  | (.skip, th') => th'.locks.Perm th.locks
  | (.lock k, th') => th'.locks.Perm (k :: th.locks)
  | (.tryLock k busy, th') => th'.locks.Perm (k :: th.locks) ∧ busy.locks.Perm th.locks
  | (.unlock k, th') => (k :: th'.locks).Perm th.locks

/-- A finished thread, and one that is about to start a job, has no connections. -/
structure Thread.Sound (th : Thread n) : Prop where
  finished : th.jobs = [] → th.place = .ready
  ready : th.place = .ready → th.held = []

theorem locks_eq {th : Thread n} {place : Place n} (h : th.place = place) :
    th.locks = place.locks ++ th.held.map .socket := by
  rw [Thread.locks, h]

@[simp] theorem locks_at (th : Thread n) (place : Place n) :
    (th.at place).locks = place.locks ++ th.held.map .socket := rfl

theorem locks_acquired (th : Thread n) (job : Job) (i : Fin (n + 1)) :
    (th.acquired job i).locks = .socket i :: th.held.map .socket := by
  unfold Thread.acquired Thread.locks
  by_cases h : job = .realtime ∧ th.held = []
  · simp [h, Place.locks]
  · simp [h, Place.locks]

theorem fits_acquireConn (th : Thread n) (job : Job) (connects : Bool) {a : Acquire n}
    (ha : th.place = .acquire a) : Op.Fits th (acquireConn th job connects a) := by
  cases a with
  | lockProfiles =>
    rw [acquireConn, Op.Fits, locks_eq ha]
    exact List.Perm.refl _
  | lockProf =>
    rw [acquireConn, Op.Fits, locks_eq ha]
    exact List.Perm.refl _
  | unlockProfiles =>
    rw [acquireConn, Op.Fits, locks_eq ha]
    exact List.Perm.swap _ _ _
  | tryNext i =>
    rw [acquireConn]
    by_cases hi : i < n + 1
    · rw [dif_pos hi, Op.Fits, locks_eq ha]
      exact ⟨List.Perm.refl _, List.Perm.refl _⟩
    · rw [dif_neg hi, Op.Fits, locks_eq ha]
      exact List.Perm.refl _
  | connect i =>
    cases connects
    all_goals
      show List.Perm (th.at _).locks th.locks
      rw [locks_eq ha]
      exact List.Perm.refl _
  | giveBack i =>
    rw [acquireConn, Op.Fits, locks_eq ha]
    exact List.Perm.refl _
  | fallback =>
    rw [acquireConn, Op.Fits, locks_eq ha]
    exact List.Perm.refl _
  | connectFirst =>
    rw [acquireConn, Op.Fits, locks_eq ha]
    exact List.Perm.refl _
  | unlockProf i =>
    rw [acquireConn, Op.Fits, locks_eq ha, locks_acquired]
    exact List.Perm.swap _ _ _

theorem fits_next {th : Thread n} {connects : Bool} {o : Op n × Thread n}
    (h : th.next connects = some o) : Op.Fits th o := by
  rw [Thread.next] at h
  cases hjobs : th.jobs with
  | nil => rw [hjobs] at h; cases h
  | cons job jobs =>
    rw [hjobs] at h
    cases hplace : th.place with
    | ready =>
      rw [hplace] at h
      cases h
      rw [Op.Fits, locks_eq hplace]
      exact List.Perm.refl _
    | acquire a =>
      rw [hplace] at h
      cases h
      exact fits_acquireConn th job connects hplace
    | exec =>
      rw [hplace] at h
      cases h
      rw [Op.Fits, locks_eq hplace]
      exact List.Perm.refl _
    | release =>
      rw [hplace] at h
      cases hheld : th.held with
      | nil =>
        rw [hheld] at h
        cases h
        rw [Op.Fits, locks_eq hplace, hheld]
        exact List.Perm.refl _
      | cons i held =>
        rw [hheld] at h
        cases h
        rw [Op.Fits, locks_eq hplace, hheld]
        exact List.Perm.refl _

/-- Every lock is held by the threads that have taken it, as often as they have. -/
def State.Held (s : State T n) : Prop :=
  ∀ k t, (s.locks k).depth t = (s.threads t).locks.count k

namespace State

variable {s s' : State T n} {t : T} {th : Thread n} {k : Lock n}

theorem Held.mem_iff (hs : s.Held) : k ∈ (s.threads t).locks ↔ 0 < (s.locks k).depth t := by
  rw [hs k t, List.count_pos_iff]

/-- A lock has one holder. -/
theorem Held.unique (hs : s.Held) {u : T} (ht : k ∈ (s.threads t).locks)
    (hu : k ∈ (s.threads u).locks) : t = u :=
  Mutex.depth_unique (hs.mem_iff.1 ht) (hs.mem_iff.1 hu)

theorem Held.put (hs : s.Held) (hth : th.locks.Perm (s.threads t).locks) : (s.put t th).Held := by
  intro k u
  show (s.locks k).depth u = (Function.update s.threads t th u).locks.count k
  by_cases hu : u = t
  · subst hu
    rw [Function.update_self, hth.count_eq, hs]
  · rw [Function.update_of_ne hu, hs]

/-- One thread has lock `k` once more than before. -/
theorem count_taken {before after : T → Thread n} (hother : ∀ u, u ≠ t → after u = before u)
    (hth : (after t).locks.Perm (k :: (before t).locks)) (j : Lock n) (u : T) :
    (after u).locks.count j = (before u).locks.count j + if j = k ∧ u = t then 1 else 0 := by
  by_cases hu : u = t
  · subst hu
    by_cases hj : j = k
    · simp [hj, hth.count_eq]
    · simp [hj, hth.count_eq, List.count_cons_of_ne (Ne.symm hj)]
  · simp [hu, hother u hu]

theorem Held.lock (hs : s.Held) {m : Mutex T} (hm : (s.locks k).lock t = some m)
    (hth : th.locks.Perm (k :: (s.threads t).locks)) : ((s.putLock k m).put t th).Held := by
  intro j u
  show (Function.update s.locks k m j).depth u = (Function.update s.threads t th u).locks.count j
  have htaken : (Function.update s.threads t th t).locks.Perm (k :: (s.threads t).locks) := by
    rwa [Function.update_self]
  have hother : ∀ v, v ≠ t → Function.update s.threads t th v = s.threads v :=
    fun v hv => Function.update_of_ne hv _ _
  rw [count_taken hother htaken, ← hs]
  by_cases hj : j = k
  · subst hj
    simp [Mutex.depth_lock hm u]
  · simp [hj]

theorem Held.unlock (hs : s.Held) (hth : (k :: th.locks).Perm (s.threads t).locks) :
    ((s.putLock k ((s.locks k).unlock t)).put t th).Held := by
  intro j u
  show (Function.update s.locks k ((s.locks k).unlock t) j).depth u =
    (Function.update s.threads t th u).locks.count j
  have htaken : (s.threads t).locks.Perm (k :: (Function.update s.threads t th t).locks) := by
    rw [Function.update_self]
    exact hth.symm
  have hother : ∀ v, v ≠ t → s.threads v = Function.update s.threads t th v :=
    fun v hv => (Function.update_of_ne hv _ _).symm
  have hcount := count_taken hother htaken j u
  have hdepth : 0 < (s.locks k).depth t := hs.mem_iff.1 (hth.subset List.mem_cons_self)
  rw [← hs] at hcount
  by_cases hj : j = k
  · subst hj
    have := Mutex.depth_unlock hdepth u
    simp only [true_and] at hcount
    rw [Function.update_self]
    omega
  · simpa [hj] using hcount

end State

/-! ## What a thread becomes -/

/-- One place in `ast_tarantool_acquire_conn` after another. -/
inductive Follows : Acquire n → Acquire n → Prop
  | lockProf : Follows .lockProfiles .lockProf
  | unlockProfiles : Follows .lockProf .unlockProfiles
  | first : Follows .unlockProfiles (.tryNext 0)
  | connect (i : Fin (n + 1)) : Follows (.tryNext i) (.connect i)
  | busy (i : Fin (n + 1)) : Follows (.tryNext i) (.tryNext (i + 1))
  | fallback {i : ℕ} (h : n + 1 ≤ i) : Follows (.tryNext i) .fallback
  | unlockProf (i : Fin (n + 1)) : Follows (.connect i) (.unlockProf i)
  | giveBack (i : Fin (n + 1)) : Follows (.connect i) (.giveBack i)
  | next (i : Fin (n + 1)) : Follows (.giveBack i) (.tryNext (i + 1))
  | connectFirst : Follows .fallback .connectFirst
  | unlockFirst : Follows .connectFirst (.unlockProf 0)

/-- What a thread may become in one step. -/
inductive Thread.Becomes (th : Thread n) : Thread n → Prop
  | start (h : th.place = .ready) (hjobs : th.jobs ≠ []) :
      Becomes th (th.at (.acquire .lockProfiles))
  | acquire {a a' : Acquire n} (h : th.place = .acquire a) (hjobs : th.jobs ≠ [])
      (hnext : Follows a a') :
      Becomes th (th.at (.acquire a'))
  | acquired {i : Fin (n + 1)} (h : th.place = .acquire (.unlockProf i)) (hjobs : th.jobs ≠ [])
      (job : Job) : Becomes th (th.acquired job i)
  | exec (h : th.place = .exec) (hjobs : th.jobs ≠ []) : Becomes th (th.at .release)
  | release {i : Fin (n + 1)} {held : List (Fin (n + 1))} (h : th.place = .release)
      (hjobs : th.jobs ≠ []) (hheld : th.held = i :: held) : Becomes th ⟨th.jobs, held, .release⟩
  | done {job : Job} {jobs : List Job} (h : th.place = .release) (hjobs : th.jobs = job :: jobs)
      (hheld : th.held = []) : Becomes th ⟨jobs, [], .ready⟩

theorem becomes_acquireConn {th : Thread n} (job : Job) (connects : Bool) {a : Acquire n}
    (ha : th.place = .acquire a) (hjobs : th.jobs ≠ []) :
    th.Becomes (acquireConn th job connects a).2 ∧
      ∀ k busy, (acquireConn th job connects a).1 = .tryLock k busy → th.Becomes busy := by
  cases a with
  | lockProfiles => exact ⟨.acquire ha hjobs .lockProf, by rintro _ _ ⟨⟩⟩
  | lockProf => exact ⟨.acquire ha hjobs .unlockProfiles, by rintro _ _ ⟨⟩⟩
  | unlockProfiles => exact ⟨.acquire ha hjobs .first, by rintro _ _ ⟨⟩⟩
  | tryNext i =>
    rw [acquireConn]
    by_cases hi : i < n + 1
    · rw [dif_pos hi]
      refine ⟨.acquire ha hjobs (.connect ⟨i, hi⟩), ?_⟩
      rintro _ _ ⟨⟩
      exact .acquire ha hjobs (.busy ⟨i, hi⟩)
    · rw [dif_neg hi]
      exact ⟨.acquire ha hjobs (.fallback (not_lt.1 hi)), by rintro _ _ ⟨⟩⟩
  | connect i =>
    cases connects with
    | true => exact ⟨.acquire ha hjobs (.unlockProf i), by rintro _ _ ⟨⟩⟩
    | false => exact ⟨.acquire ha hjobs (.giveBack i), by rintro _ _ ⟨⟩⟩
  | giveBack i => exact ⟨.acquire ha hjobs (.next i), by rintro _ _ ⟨⟩⟩
  | fallback => exact ⟨.acquire ha hjobs .connectFirst, by rintro _ _ ⟨⟩⟩
  | connectFirst => exact ⟨.acquire ha hjobs .unlockFirst, by rintro _ _ ⟨⟩⟩
  | unlockProf i => exact ⟨.acquired ha hjobs job, by rintro _ _ ⟨⟩⟩

/-- What is next for a thread, and what it is if a connection is busy. -/
theorem becomes_next {th th' : Thread n} {connects : Bool} {op : Op n}
    (h : th.next connects = some (op, th')) :
    th.Becomes th' ∧ ∀ k busy, op = .tryLock k busy → th.Becomes busy := by
  rw [Thread.next] at h
  cases hjobs : th.jobs with
  | nil =>
    rw [hjobs] at h
    cases h
  | cons job jobs =>
    have hne : th.jobs ≠ [] := by rw [hjobs]; exact List.cons_ne_nil _ _
    rw [hjobs] at h
    cases hplace : th.place with
    | ready =>
      rw [hplace] at h
      cases h
      exact ⟨.start hplace hne, by rintro _ _ ⟨⟩⟩
    | acquire a =>
      rw [hplace] at h
      have hstep := becomes_acquireConn job connects hplace hne
      rw [Option.some.inj h] at hstep
      exact hstep
    | exec =>
      rw [hplace] at h
      cases h
      exact ⟨.exec hplace hne, by rintro _ _ ⟨⟩⟩
    | release =>
      rw [hplace] at h
      cases hheld : th.held with
      | nil =>
        rw [hheld] at h
        cases h
        exact ⟨.done hplace hjobs hheld, by rintro _ _ ⟨⟩⟩
      | cons i held =>
        rw [hheld] at h
        cases h
        rw [← hjobs]
        exact ⟨.release hplace hne hheld, by rintro _ _ ⟨⟩⟩

/-- **What a step does**: it leaves the locks alone, takes one or gives one back, and the thread
holds its locks accordingly. -/
theorem State.step_cases {s s' : State T n} {a : Action T} (h : s.step a = some s') :
    ∃ th, (s.threads a.1).Becomes th ∧
      ((s' = s.put a.1 th ∧ th.locks.Perm (s.threads a.1).locks) ∨
        (∃ k m, (s.locks k).lock a.1 = some m ∧ s' = (s.putLock k m).put a.1 th ∧
          th.locks.Perm (k :: (s.threads a.1).locks)) ∨
        ∃ k, s' = (s.putLock k ((s.locks k).unlock a.1)).put a.1 th ∧
          (k :: th.locks).Perm (s.threads a.1).locks) := by
  rw [State.step] at h
  cases hnext : (s.threads a.1).next a.2 with
  | none =>
    rw [hnext] at h
    cases h
  | some o =>
    obtain ⟨op, th⟩ := o
    obtain ⟨hth, hbusy⟩ := becomes_next hnext
    have hfits := fits_next hnext
    rw [hnext] at h
    cases op with
    | skip =>
      cases h
      exact ⟨th, hth, .inl ⟨rfl, hfits⟩⟩
    | lock k =>
      obtain ⟨m, hm, rfl⟩ := Option.map_eq_some_iff.1 h
      exact ⟨th, hth, .inr (.inl ⟨k, m, hm, rfl, hfits⟩)⟩
    | tryLock k busy =>
      cases hm : (s.locks k).lock a.1 with
      | none =>
        simp only [hm] at h
        cases h
        exact ⟨busy, hbusy k busy rfl, .inl ⟨rfl, hfits.2⟩⟩
      | some m =>
        simp only [hm] at h
        cases h
        exact ⟨th, hth, .inr (.inl ⟨k, m, hm, rfl, hfits.1⟩)⟩
    | unlock k =>
      cases h
      exact ⟨th, hth, .inr (.inr ⟨k, rfl, hfits⟩)⟩

/-! ## The invariant -/

/-- The thread tried all connections in vain, and is about to wait for the first one. -/
def Place.exhausted : Place n → Bool
  | .acquire (.tryNext i) => n + 1 ≤ i
  | _ => false

/-- The thread is acquiring a connection. -/
def Place.acquiring : Place n → Bool
  | .acquire _ => true
  | _ => false

/-- No thread goes on to wait for the first connection while it is held by another thread that is
still to acquire its second one. -/
def State.Safe (s : State T n) (a : Action T) : Prop :=
  (s.threads a.1).place.exhausted = true → ∀ u, u ≠ a.1 →
    .socket 0 ∈ (s.threads u).locks → (s.threads u).place.acquiring = false

instance [Fintype T] (s : State T n) (a : Action T) : Decidable (s.Safe a) :=
  inferInstanceAs (Decidable ((s.threads a.1).place.exhausted = true → ∀ u, u ≠ a.1 →
    .socket 0 ∈ (s.threads u).locks → (s.threads u).place.acquiring = false))

/-- What holds throughout a run whose steps are safe. -/
structure State.Inv (s : State T n) : Prop where
  held : s.Held
  /-- A finished thread has no job. -/
  finished : ∀ t, (s.threads t).jobs = [] → (s.threads t).place = .ready
  /-- A thread that is about to start a job has no connections. -/
  ready : ∀ t, (s.threads t).place = .ready → (s.threads t).held = []
  /-- The connection a thread waits for is not held by one that waits for a lock. -/
  fallback : ∀ t u, (s.threads t).place = .acquire .fallback → u ≠ t →
    .socket 0 ∈ (s.threads u).locks → (s.threads u).place.acquiring = false

theorem Thread.Becomes.finished {th th' : Thread n} (h : th.Becomes th') (hjobs : th'.jobs = []) :
    th'.place = .ready := by
  cases h with
  | done => rfl
  | start _ hne => exact absurd hjobs hne
  | acquire _ hne _ => exact absurd hjobs hne
  | acquired _ hne _ => exact absurd hjobs hne
  | exec _ hne => exact absurd hjobs hne
  | release _ hne _ => exact absurd hjobs hne

theorem Thread.Becomes.ready {th th' : Thread n} (h : th.Becomes th')
    (hplace : th'.place = .ready) :
    th'.held = [] := by
  cases h with
  | done => rfl
  | acquired _ _ job =>
    rw [Thread.acquired] at hplace
    split at hplace <;> cases hplace
  | start | acquire | exec | release => cases hplace

theorem Thread.Becomes.exhausted {th th' : Thread n} (h : th.Becomes th')
    (hplace : th'.place = .acquire .fallback) : th.place.exhausted = true := by
  cases h with
  | acquire ha _ hnext =>
    cases hplace
    cases hnext with
    | fallback hi => rw [ha, Place.exhausted, decide_eq_true hi]
  | acquired _ _ job =>
    rw [Thread.acquired] at hplace
    split at hplace <;> cases hplace
  | start | exec | release | done => cases hplace

/-- Without the lock of the profile, a thread gets no connection, and one that has a connection does
not begin to acquire another one. -/
theorem Thread.Becomes.acquiring {th th' : Thread n} (h : th.Becomes th')
    (hready : th.place = .ready → th.held = []) (hprof : .prof ∉ th.locks) {i : Fin (n + 1)}
    (hsocket : .socket i ∈ th'.locks) (hacquiring : th'.place.acquiring = true) :
    .socket i ∈ th.locks ∧ th.place.acquiring = true := by
  cases h with
  | start hplace _ =>
    rw [locks_at, hready hplace] at hsocket
    cases hsocket
  | acquire ha _ hnext =>
    rw [locks_eq ha] at hprof ⊢
    refine ⟨?_, by rw [ha]; rfl⟩
    rw [locks_at] at hsocket
    cases hnext with
    | lockProf => simpa [Place.locks] using hsocket
    | unlockProfiles => simpa [Place.locks] using hsocket
    | _ => simp [Place.locks] at hprof
  | acquired ha _ job =>
    rw [locks_eq ha] at hprof
    simp [Place.locks] at hprof
  | exec | release | done => cases hacquiring

namespace State

variable {s s' : State T n} {a : Action T}

theorem Held.step (hs : s.Held) (h : s.step a = some s') : s'.Held := by
  obtain ⟨th, -, ⟨rfl, hth⟩ | ⟨k, m, hm, rfl, hth⟩ | ⟨k, rfl, hth⟩⟩ := step_cases h
  · exact hs.put hth
  · exact hs.lock hm hth
  · exact hs.unlock hth

/-- A step changes its own thread. -/
theorem step_threads (h : s.step a = some s') :
    ∃ th, (s.threads a.1).Becomes th ∧ s'.threads = Function.update s.threads a.1 th := by
  obtain ⟨th, hth, ⟨rfl, -⟩ | ⟨k, m, -, rfl, -⟩ | ⟨k, rfl, -⟩⟩ := step_cases h
  all_goals exact ⟨th, hth, rfl⟩

theorem Inv.step (hs : s.Inv) (hsafe : s.Safe a) (h : s.step a = some s') : s'.Inv := by
  obtain ⟨th, hth, hthreads⟩ := step_threads h
  have hself : s'.threads a.1 = th := by rw [hthreads, Function.update_self]
  have hother : ∀ t, t ≠ a.1 → s'.threads t = s.threads t := by
    intro t ht
    rw [hthreads, Function.update_of_ne ht]
  refine ⟨hs.held.step h, ?_, ?_, ?_⟩
  · intro t hjobs
    by_cases ht : t = a.1
    · subst ht
      rw [hself] at hjobs ⊢
      exact hth.finished hjobs
    · rw [hother t ht] at hjobs ⊢
      exact hs.finished t hjobs
  · intro t hplace
    by_cases ht : t = a.1
    · subst ht
      rw [hself] at hplace ⊢
      exact hth.ready hplace
    · rw [hother t ht] at hplace ⊢
      exact hs.ready t hplace
  · intro t u hplace hne hsocket
    by_cases ht : t = a.1
    · -- The thread goes on to wait: the step is safe.
      subst ht
      rw [hself] at hplace
      rw [hother u hne] at hsocket ⊢
      exact hsafe (hth.exhausted hplace) u hne hsocket
    · rw [hother t ht] at hplace
      by_cases hu : u = a.1
      · -- The thread that waits has the lock of the profile, so this one does not.
        subst hu
        rw [hself] at hsocket ⊢
        have hprof : .prof ∉ (s.threads a.1).locks := by
          intro hprof
          refine hne (hs.held.unique hprof ?_)
          rw [locks_eq hplace]
          exact List.mem_append_left _ List.mem_cons_self
        by_contra hacquiring
        obtain ⟨hbefore, hacquiring'⟩ := hth.acquiring (hs.ready a.1) hprof hsocket
          (Bool.not_eq_false _ ▸ hacquiring)
        rw [hs.fallback t a.1 hplace hne hbefore] at hacquiring'
        cases hacquiring'
      · rw [hother u hu] at hsocket ⊢
        exact hs.fallback t u hplace hne hsocket

theorem Inv.turn (hs : s.Inv) (hsafe : s.Safe a) : (s.turn a).Inv := by
  rw [State.turn]
  cases h : s.step a with
  | none => exact hs
  | some s' => exact hs.step hsafe h

theorem inv_start (n : ℕ) (jobs : T → List Job) : (start n jobs).Inv where
  held _ _ := rfl
  finished _ _ := rfl
  ready _ _ := rfl
  fallback _ _ h := by cases h

end State

/-! ## Who can take a step -/

/-- The lock that is waited for at a place. -/
def Place.wants : Place n → Option (Lock n)
  | .acquire .lockProfiles => some .profiles
  | .acquire .lockProf => some .prof
  | .acquire .fallback => some (.socket 0)
  | _ => none

theorem wants_of_lock {th th' : Thread n} {connects : Bool} {k : Lock n}
    (h : th.next connects = some (.lock k, th')) : th.place.wants = some k := by
  rw [Thread.next] at h
  split at h
  · cases h
  · split at h
    · cases h
    · rename_i a hplace
      rw [hplace]
      cases a with
      | lockProfiles => cases h; rfl
      | lockProf => cases h; rfl
      | fallback => cases h; rfl
      | tryNext i =>
        simp only [acquireConn] at h
        split at h <;> cases h
      | connect i => cases connects <;> cases h
      | unlockProfiles | giveBack | connectFirst | unlockProf => cases h
    · cases h
    · split at h <;> cases h

theorem exists_next {th : Thread n} (hjobs : th.jobs ≠ []) (connects : Bool) :
    ∃ o, th.next connects = some o := by
  rw [Thread.next]
  split
  · rename_i h
    exact absurd h hjobs
  · split
    · exact ⟨_, rfl⟩
    · exact ⟨_, rfl⟩
    · exact ⟨_, rfl⟩
    · split <;> exact ⟨_, rfl⟩

/-- A thread that waits and has the lock of the profile is in the fallback; one that has the lock of
the profiles waits for the lock of the profile. -/
theorem wants_of_holds {th : Thread n} {k : Lock n} (h : th.place.wants = some k) :
    (.prof ∈ th.locks → th.place = .acquire .fallback) ∧
      (.profiles ∈ th.locks → k = .prof) ∧
      (th.place.acquiring = true) := by
  cases hplace : th.place with
  | acquire a =>
    rw [hplace] at h
    rw [locks_eq hplace]
    cases a with
    | lockProfiles => simp [Place.locks, Place.acquiring]
    | lockProf =>
      cases h
      simp [Place.locks, Place.acquiring]
    | fallback => simp [Place.locks, Place.acquiring]
    | _ => cases h
  | _ => rw [hplace] at h; cases h

namespace State

variable {s : State T n} {t : T}

/-- A thread that does not wait for another one can take a step. -/
theorem Inv.canStep (hs : s.Inv) (hjobs : (s.threads t).jobs ≠ [])
    (hfree : ∀ k, (s.threads t).place.wants = some k → ∀ u, u ≠ t → k ∉ (s.threads u).locks) :
    s.CanStep t := by
  refine ⟨true, ?_⟩
  obtain ⟨⟨op, th⟩, hnext⟩ := exists_next hjobs true
  rw [State.step, hnext]
  cases op with
  | skip => rfl
  | lock k =>
    cases hm : (s.locks k).lock t with
    | none =>
      obtain ⟨u, hne, hdepth⟩ := Mutex.lock_eq_none_iff.1 hm
      exact absurd (hs.held.mem_iff.2 hdepth) (hfree k (wants_of_lock hnext) u hne)
    | some m => simp [hm]
  | tryLock k busy => cases hm : (s.locks k).lock t <;> simp [hm]
  | unlock k => rfl

/-- Whoever holds a lock is not finished. -/
theorem Inv.unfinished (hs : s.Inv) {k : Lock n} (hk : k ∈ (s.threads t).locks) :
    (s.threads t).jobs ≠ [] := by
  intro hjobs
  have hplace := hs.finished t hjobs
  rw [locks_eq hplace, hs.ready t hplace] at hk
  cases hk

/-- A thread that holds a lock can take a step, or it waits for another thread. -/
theorem Inv.canStep_or (hs : s.Inv) (hjobs : (s.threads t).jobs ≠ []) :
    s.CanStep t ∨ ∃ k u, (s.threads t).place.wants = some k ∧ u ≠ t ∧ k ∈ (s.threads u).locks := by
  by_cases hfree : ∀ k, (s.threads t).place.wants = some k → ∀ u, u ≠ t → k ∉ (s.threads u).locks
  · exact Or.inl (hs.canStep hjobs hfree)
  · simp only [not_forall, not_not] at hfree
    obtain ⟨k, hwants, u, hne, hk⟩ := hfree
    exact Or.inr ⟨k, u, hwants, hne, hk⟩

/-- Whoever has the lock of the profile can take a step, or the one it waits for. -/
theorem Inv.live_prof (hs : s.Inv) (hprof : .prof ∈ (s.threads t).locks) :
    ∃ u, (s.threads u).jobs ≠ [] ∧ s.CanStep u := by
  rcases hs.canStep_or (hs.unfinished hprof) with hstep | ⟨k, u, hwants, hne, hk⟩
  · exact ⟨t, hs.unfinished hprof, hstep⟩
  · have hplace := (wants_of_holds hwants).1 hprof
    rw [hplace] at hwants
    cases hwants
    have hacquiring := hs.fallback t u hplace hne hk
    refine ⟨u, hs.unfinished hk, (hs.canStep_or (hs.unfinished hk)).resolve_right ?_⟩
    rintro ⟨k, -, hwants, -⟩
    rw [(wants_of_holds hwants).2.2] at hacquiring
    cases hacquiring

/-- Whoever has the lock of the profiles can take a step, or the one it waits for. -/
theorem Inv.live_profiles (hs : s.Inv) (hprofiles : .profiles ∈ (s.threads t).locks) :
    ∃ u, (s.threads u).jobs ≠ [] ∧ s.CanStep u := by
  rcases hs.canStep_or (hs.unfinished hprofiles) with hstep | ⟨k, u, hwants, -, hk⟩
  · exact ⟨t, hs.unfinished hprofiles, hstep⟩
  · rw [(wants_of_holds hwants).2.1 hprofiles] at hk
    exact hs.live_prof hk

theorem Inv.live (hs : s.Inv) : s.Live := by
  rintro ⟨t, hjobs⟩
  rcases hs.canStep_or hjobs with hstep | ⟨k, u, hwants, -, hk⟩
  · exact ⟨t, hjobs, hstep⟩
  · cases k with
    | profiles => exact hs.live_profiles hk
    | prof => exact hs.live_prof hk
    | socket i =>
      -- It waits for the first connection, and has the lock of the profile.
      refine hs.live_prof (t := t) ?_
      cases hplace : (s.threads t).place with
      | acquire a =>
        rw [hplace] at hwants
        rw [locks_eq hplace]
        cases a with
        | fallback => simp [Place.locks]
        | _ => cases hwants
      | _ => rw [hplace] at hwants; cases hwants

end State

end Pool

end Asterisk

open Asterisk Pool

/-- **The pool does not deadlock** in a run in which no thread goes on to wait for the first
connection while another thread holds it that is still to acquire its second one. -/
theorem never_stuck {T : Type} [DecidableEq T] (n : ℕ) (jobs : T → List Job) {l : List (Action T)}
    (hsafe : AllSteps State.turn State.Safe (Pool.start n jobs) l) :
    (run State.turn (Pool.start n jobs) l).Live := by
  have hinv : (run State.turn (Pool.start n jobs) l).Inv :=
    run_invariant (fun s a hs hsafe => hs.turn hsafe) (State.inv_start n jobs) hsafe
  exact hinv.live

/-- Two threads that call procedures over one connection, the second one waits for it. -/
theorem never_stuck_twoCalls :
    (run State.turn (Pool.start 0 fun _ : Bool => [.call])
      ([false, false, false, false, false, false, false, true, true, true, true, true, true,
        true].map fun t => (t, true))).Live :=
  never_stuck 0 _ (by decide +kernel)

/-- Two threads that execute `realtime_tarantool` over one connection: the second one waits for it,
and the first one for the lock of the profile. -/
theorem stuck_twoLookups :
    ¬ ∀ (n : ℕ) (jobs : Bool → List Job) (l : List (Action Bool)),
      (run State.turn (Pool.start n jobs) l).Live := by
  intro hlive
  have hstuck := hlive 0 (fun _ => [.realtime])
    ([false, false, false, false, false, false, false, true, true, true, true, true, true, true,
      false, false].map fun t => (t, true))
  obtain ⟨t, -, hstep⟩ := hstuck ⟨false, by decide +kernel⟩
  exact absurd hstep (by revert t; decide +kernel)

end VoipBackend
