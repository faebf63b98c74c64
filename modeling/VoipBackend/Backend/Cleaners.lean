import VoipBackend.Backend.Draining
import VoipBackend.Lib.Execution

/-!
# One cleaner at a time?

`ttl_worker.start` and `ttl_worker.stop`.  The flag `is_running` is both the signal for
the cleaner to stop and the guard against a second cleaner, and a cleaner that is asleep
does not see the signal before it wakes up.  A worker that is stopped and started again
in the meantime has two cleaners, and neither ever stops (`two_cleaners`).

That is the only way: as long as every start that takes effect finds the earlier cleaners
out of their loops, there is at most one that will sweep again
(`one_cleaner_iff_startsAlone`).

The interval between two sweeps does not appear: a sleeping fiber may be resumed at any
time.
-/

namespace VoipBackend

open Library

/-- The worker, with every cleaner fiber it has created and the spaces they work on. -/
structure TtlWorker where
  isRunning : Bool
  fibers : List Cleaner
  box : Box

/-- What can happen to the worker. -/
inductive TtlAction where
  | start (now : Clock)
  | stop
  /-- The turn of a cleaner fiber. -/
  | turn (i : ℕ) (now : Clock)
  /-- The other fibers change the spaces. -/
  | others (b : Box)

namespace TtlWorker

/-- `ttl_worker.start`.  A new fiber runs at once, up to its first suspension. -/
def start (now : Clock) (s : TtlWorker) : TtlWorker :=
  if s.isRunning then s
  else
    let p := Cleaner.resume now true .awake s.box
    ⟨true, s.fibers ++ [p.1], p.2⟩

/-- `ttl_worker.stop`. -/
def stop (s : TtlWorker) : TtlWorker := { s with isRunning := false }

/-- The turn of a cleaner fiber. -/
def turn (i : ℕ) (now : Clock) (s : TtlWorker) : TtlWorker :=
  match s.fibers[i]? with
  | none => s
  | some w =>
      let p := w.resume now s.isRunning s.box
      ⟨s.isRunning, s.fibers.set i p.1, p.2⟩

/-- One step. -/
def step (s : TtlWorker) : TtlAction → TtlWorker
  | .start now => s.start now
  | .stop => s.stop
  | .turn i now => s.turn i now
  | .others b => { s with box := b }

/-- Before the first start. -/
def init (b : Box) : TtlWorker := ⟨false, [], b⟩

/-- With the flag as it is, the fiber gets back to the head of its loop and finds the flag
set: it will execute another sweep. -/
def WillSweep (s : TtlWorker) (i : ℕ) : Prop :=
  ∃ w, s.fibers[i]? = some w ∧ s.isRunning = true ∧
    ∀ now, ∃ b, Relation.ReflTransGen (TurnAmid Eq now) (w, s.box) (.awake, b)

/-- At most one cleaner will execute another sweep. -/
def OneCleaner (s : TtlWorker) : Prop := ∀ i j, s.WillSweep i → s.WillSweep j → i = j

/-- A start that takes effect finds every earlier cleaner out of its loop. -/
def StartsAlone (s : TtlWorker) : TtlAction → Prop
  | .start _ => s.isRunning = false → ∀ w ∈ s.fibers, w = .stopped
  | _ => True

/-- At most one cleaner is in its loop. -/
def OneInLoop (s : TtlWorker) : Prop :=
  ∀ (i j : ℕ) (w w' : Cleaner), s.fibers[i]? = some w → s.fibers[j]? = some w' →
    w ≠ .stopped → w' ≠ .stopped → i = j

end TtlWorker

/-! ## Cleaners on their own -/

/-- A fiber out of its loop stays out. -/
theorem stopped_of_turns {now : Clock} {p p' : Cleaner × Box}
    (h : Relation.ReflTransGen (TurnAmid Eq now) p p') (hp : p.1 = .stopped) :
    p'.1 = .stopped := by
  induction h with
  | refl => exact hp
  | tail hrest hturn ih =>
    obtain ⟨b, -, rfl⟩ := hturn
    rw [ih]
    rfl

/-- As long as the flag is set, a turn does not take a fiber out of its loop. -/
theorem drainSpaces_ne_stopped (now : ℕ) (b : Box) (purged : ℕ) (spaces : List DrainedSpace) :
    (drainSpaces true now b purged spaces).1 ≠ .stopped := by
  rcases drainSpaces_collects true now b purged spaces with h |
    ⟨space, later, key, keys, size, purged', -, h⟩
  · rw [h]
    exact Cleaner.noConfusion
  · rw [h]
    exact Cleaner.noConfusion

namespace TtlWorker

variable {s : TtlWorker}

/-- **Who will sweep.**  While the flag is set, the fibers in their loops and no others. -/
theorem willSweep_iff {i : ℕ} :
    s.WillSweep i ↔ s.isRunning = true ∧ ∃ w, s.fibers[i]? = some w ∧ w ≠ .stopped := by
  constructor
  · rintro ⟨w, hw, hrunning, hturns⟩
    refine ⟨hrunning, w, hw, fun hstopped => ?_⟩
    obtain ⟨b, hawake⟩ := hturns (.ofSeconds 0 (by norm_num))
    cases stopped_of_turns hawake hstopped
  · rintro ⟨hrunning, w, hw, hloop⟩
    exact ⟨w, hw, hrunning, fun now => reaches_awake now hloop s.box⟩

theorem OneInLoop.oneCleaner (h : s.OneInLoop) : s.OneCleaner := by
  intro i j hi hj
  obtain ⟨-, w, hw, hloop⟩ := willSweep_iff.1 hi
  obtain ⟨-, w', hw', hloop'⟩ := willSweep_iff.1 hj
  exact h i j w w' hw hw' hloop hloop'

/-- Nothing but a start that takes effect adds a fiber to those in their loops. -/
theorem step_oneInLoop {a : TtlAction} (h : s.OneInLoop) (hstart : s.StartsAlone a) :
    (s.step a).OneInLoop := by
  cases a with
  | start now =>
    rw [step, start]
    split_ifs with hrunning
    · exact h
    · have hstopped := hstart (Bool.eq_false_iff.2 hrunning)
      -- the new fiber is the only one in its loop
      have hlast : ∀ (i : ℕ) (w : Cleaner), w ≠ .stopped →
          (s.fibers ++ [(Cleaner.resume now true .awake s.box).1])[i]? = some w →
          i = s.fibers.length := by
        intro i w hloop hw
        by_contra hne
        rcases Nat.lt_or_gt_of_ne hne with hlt | hgt
        · rw [List.getElem?_append_left hlt] at hw
          exact hloop (hstopped w (List.mem_of_getElem? hw))
        · rw [List.getElem?_eq_none (by simp; omega)] at hw
          cases hw
      intro i j w w' hw hw' hloop hloop'
      rw [hlast i w hloop hw, hlast j w' hloop' hw']
  | stop => exact h
  | turn k now =>
    rw [step, turn]
    cases hk : s.fibers[k]? with
    | none => exact h
    | some v =>
      -- a fiber in its loop after the turn was in its loop before
      have hbefore : ∀ (i : ℕ) (w : Cleaner), w ≠ .stopped →
          (s.fibers.set k (v.resume now s.isRunning s.box).1)[i]? = some w →
          ∃ w₀ : Cleaner, s.fibers[i]? = some w₀ ∧ w₀ ≠ .stopped := by
        intro i w hloop hw
        by_cases hik : k = i
        · subst hik
          refine ⟨v, hk, fun hv => hloop ?_⟩
          rw [List.getElem?_set_self (List.getElem?_eq_some_iff.1 hk).1, hv] at hw
          exact (Option.some.inj hw).symm
        · rw [List.getElem?_set_ne hik] at hw
          exact ⟨w, hw, hloop⟩
      intro i j w w' hw hw' hloop hloop'
      obtain ⟨w₀, hw₀, hloop₀⟩ := hbefore i w hloop hw
      obtain ⟨w₁, hw₁, hloop₁⟩ := hbefore j w' hloop' hw'
      exact h i j w₀ w₁ hw₀ hw₁ hloop₀ hloop₁
  | others b => exact h

/-- A start that takes effect while another cleaner is in its loop makes two that will
sweep. -/
theorem startsAlone_of_oneCleaner {a : TtlAction} (h : (s.step a).OneCleaner) :
    s.StartsAlone a := by
  cases a with
  | start now =>
    intro hrunning w hw
    by_contra hloop
    obtain ⟨i, hi⟩ := List.getElem?_of_mem hw
    have hlt : i < s.fibers.length := (List.getElem?_eq_some_iff.1 hi).1
    rw [step, start, if_neg (by simp [hrunning])] at h
    have hold : (s.fibers ++ [(Cleaner.resume now true .awake s.box).1])[i]? = some w := by
      rw [List.getElem?_append_left hlt, hi]
    have hnew : (s.fibers ++ [(Cleaner.resume now true .awake s.box).1])[s.fibers.length]? =
        some (Cleaner.resume now true .awake s.box).1 := by
      simp
    have heq := h i s.fibers.length (willSweep_iff.2 ⟨rfl, w, hold, hloop⟩)
      (willSweep_iff.2 ⟨rfl, _, hnew, drainSpaces_ne_stopped _ _ _ _⟩)
    omega
  | stop => exact True.intro
  | turn k now => exact True.intro
  | others b => exact True.intro

theorem init_oneInLoop (b : Box) : (init b).OneInLoop := by
  intro i j w w' hw
  cases hw

end TtlWorker

/-- **One cleaner.**  In a run of starts, stops, turns of the cleaners and whatever else
happens to the spaces, at most one cleaner will sweep again at any time exactly when every
start that takes effect finds the earlier cleaners out of their loops. -/
theorem one_cleaner_iff_startsAlone (b : Box) (l : List TtlAction) :
    AllSteps TtlWorker.step (fun s a => (s.step a).OneCleaner) (.init b) l ↔
      AllSteps TtlWorker.step TtlWorker.StartsAlone (.init b) l := by
  refine AllSteps.iff_of_invariant (I := TtlWorker.OneInLoop) (P := fun _ _ => True)
    (fun s a hs _ => ?_) (fun s a hs _ hone => ?_) (TtlWorker.init_oneInLoop b)
    (AllSteps.trivial (fun _ _ => True.intro) _ l)
  · exact ⟨TtlWorker.startsAlone_of_oneCleaner,
      fun hstart => (TtlWorker.step_oneInLoop hs hstart).oneCleaner⟩
  · exact TtlWorker.step_oneInLoop hs (TtlWorker.startsAlone_of_oneCleaner hone)

/-- A worker that is started, stopped and started again before its cleaner has woken up. -/
def startedTwice : List TtlAction :=
  [.start (.ofSeconds 1700000000 (by decide)), .stop,
    .start (.ofSeconds 1700000001 (by decide))]

/-- A worker that is started again too early has two cleaners. -/
theorem two_cleaners :
    ¬ ∀ b l, AllSteps TtlWorker.step (fun s a => (s.step a).OneCleaner) (.init b) l := by
  intro h
  have halone := (TtlWorker.startsAlone_of_oneCleaner (h .init startedTwice).2.2.1)
  have := halone rfl .awake List.mem_cons_self
  cases this

end VoipBackend
