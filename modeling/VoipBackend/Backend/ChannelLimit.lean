import VoipBackend.Backend.Fibers

/-!
# The limit on concurrent calls

`authorize_call` counts the active dialogs of the caller and registers one more if
there are fewer than the subscriber's `max_concurrent_calls`.  Count and
registration fall into one turn, so no fiber comes between them; every other turn
removes dialogs, refreshes one under its old caller, or does not touch them.

So in any interleaving of any number of fibers (requests of all kinds, teardowns at
any point, TTL cleaners) a subscriber never has more dialogs than its limit, as long
as the limit is not lowered under it (`countActiveCalls_le_callLimit`).
-/

namespace VoipBackend

open Library

/-- `max_concurrent_calls` of a subscriber; there is no room for one that does not
exist. -/
def callLimit (b : Box) (subId : LuaString) : ℕ :=
  (b.subscribers.get subId).elim 0 Subscriber.maxConcurrentCalls

/-! ## How the writes change the count -/

theorem countActiveCalls_congr {b b' : Box} (h : b'.kamDialogs = b.kamDialogs) (subId : LuaString) :
    countActiveCalls b' subId = countActiveCalls b subId := by
  unfold countActiveCalls
  rw [h]

/-- A registration adds at most one dialog, and adds it to its caller. -/
theorem countActiveCalls_upsertDialog_le (b : Box) (dlg : Dialog) (subId : LuaString) :
    countActiveCalls (b.upsertDialog dlg) subId ≤
      countActiveCalls b subId + if dlg.fromTag = subId then 1 else 0 := by
  rw [countActiveCalls_eq_sumOf, countActiveCalls_eq_sumOf]
  set w : Dialog → ℕ := fun d => if d.fromTag = subId then 1 else 0
  unfold Box.upsertDialog KeyedTable.upsert
  cases hget : b.kamDialogs.get dlg.callId with
  | none =>
    have hput := KeyedTable.sumOf_put b.kamDialogs w dlg
    rw [hget, Option.elim_none] at hput
    exact hput.le
  | some old =>
    have hput := KeyedTable.sumOf_put b.kamDialogs w (refreshDialog dlg.expiresAt old)
    have hsame : w (refreshDialog dlg.expiresAt old) = w old := rfl
    rw [refreshDialog_callId, KeyedTable.key_of_get hget, hget, Option.elim_some, hsame] at hput
    exact le_add_right (Nat.add_right_cancel hput).le

theorem countActiveCalls_deleteDialog_le (b : Box) (callId subId : LuaString) :
    countActiveCalls (b.deleteDialog callId) subId ≤ countActiveCalls b subId := by
  rw [countActiveCalls_eq_sumOf, countActiveCalls_eq_sumOf]
  have hdelete := KeyedTable.sumOf_delete b.kamDialogs
    (fun d => if d.fromTag = subId then 1 else 0) callId
  simp only [Box.deleteDialog]
  omega

theorem countActiveCalls_deleteFrom_le (b : Box) (key : LuaString) (space : DrainedSpace)
    (subId : LuaString) :
    countActiveCalls (b.deleteFrom key space) subId ≤ countActiveCalls b subId := by
  cases space with
  | rtpeCalls => exact le_rfl
  | kamDialogs => exact countActiveCalls_deleteDialog_le b key subId
  | kamUsrloc => exact le_rfl

/-- An authorisation adds a dialog of its caller only below the limit. -/
theorem countActiveCalls_authorizeCall (now : Clock) (a : AuthorizeArgs) (b : Box)
    (subId : LuaString) :
    countActiveCalls (authorizeCall now a b).2 subId ≤
      max (countActiveCalls b subId) (callLimit b subId) := by
  rcases authorizeCall_cases now a b with ⟨hbox, -⟩ | ⟨sub, expiresAt, hsub, hcount, -, -, heq⟩
  · rw [hbox]
    exact le_max_left _ _
  · have hle := countActiveCalls_upsertDialog_le b
      (newDialog now a (matchTariff b a.callee) expiresAt) subId
    rw [newDialog_fromTag] at hle
    rw [heq]
    show countActiveCalls (b.upsertDialog _) subId ≤ _
    by_cases hcaller : a.caller = subId
    · subst hcaller
      have hlimit : callLimit b a.caller = sub.maxConcurrentCalls := by
        rw [callLimit, hsub]
        rfl
      rw [if_pos rfl] at hle
      refine le_max_of_le_right ?_
      omega
    · rw [if_neg hcaller] at hle
      exact le_max_of_le_left hle

/-! ## Turns and runs -/

theorem start_kamDialogs (now : Clock) (b : Box) {op : Op} (h : ∀ a, op ≠ .authorizeCall a) :
    (start now b op).2.kamDialogs = b.kamDialogs := by
  cases op with
  | addSubscriber a =>
    show (addSubscriber now a b).2.kamDialogs = b.kamDialogs
    rw [addSubscriber_frame]
  | updateBalance subId deltaAmount =>
    show (updateBalance now subId deltaAmount b).2.kamDialogs = b.kamDialogs
    rw [updateBalance_frame]
  | setTariff a => rfl
  | authorizeCall a => exact absurd rfl (h a)
  | finalizeCdr a => exact startFinalizeCdr_kamDialogs now a b

/-- **One turn.**  It adds a dialog of a subscriber only below its limit. -/
theorem countActiveCalls_resume (env : Env) (fib : Fiber) (b : Box) (subId : LuaString) :
    countActiveCalls (resume env fib b).2 subId ≤
      max (countActiveCalls b subId) (callLimit b subId) := by
  have hsame : ∀ b' : Box, b'.kamDialogs = b.kamDialogs →
      countActiveCalls b' subId ≤ max (countActiveCalls b subId) (callLimit b subId) := by
    intro b' h
    rw [countActiveCalls_congr h]
    exact le_max_left _ _
  cases fib with
  | request op =>
    by_cases hop : ∃ a, op = .authorizeCall a
    · obtain ⟨a, rfl⟩ := hop
      exact countActiveCalls_authorizeCall env.now a b subId
    · push Not at hop
      exact hsame _ (start_kamDialogs env.now b hop)
  | storingCdr f => exact hsame _ (storeCdr_kamDialogs f b)
  | deletingDialog f =>
    exact le_max_of_le_left (countActiveCalls_deleteDialog_le b f.args.callId subId)
  | deletingCall f => exact hsame _ rfl
  | cleaner w =>
    show countActiveCalls (w.resume env.now env.isRunning b).2 subId ≤ _
    rcases w.resume_cases env.now env.isRunning b with h | ⟨key, space, h⟩
    · rw [h]
      exact le_max_left _ _
    · rw [h]
      exact le_max_of_le_left (countActiveCalls_deleteFrom_le b key space subId)
  | done outcome => exact hsame _ rfl

variable {ι : Type} [DecidableEq ι]

/-- A turn that does not lower the limit of a subscriber. -/
def KeepsLimit (subId : LuaString) (c : Fibers ι) (x : ι × Env) : Prop :=
  callLimit c.shared subId ≤ callLimit (c.turn x).shared subId

instance (subId : LuaString) (c : Fibers ι) (x : ι × Env) : Decidable (KeepsLimit subId c x) :=
  inferInstanceAs (Decidable (_ ≤ _))

/-- **The limit holds.**  From spaces without dialogs, with any fibers and in any
interleaving in which its limit is never lowered, a subscriber never has more dialogs
than its `max_concurrent_calls`. -/
theorem countActiveCalls_le_callLimit {c : Fibers ι} (hc : c.shared.kamDialogs = .empty)
    {subId : LuaString} {l : List (ι × Env)} (h : AllSteps Fibers.turn (KeepsLimit subId) c l) :
    countActiveCalls (run Fibers.turn c l).shared subId ≤
      callLimit (run Fibers.turn c l).shared subId := by
  refine run_invariant
    (I := fun c : Fibers ι => countActiveCalls c.shared subId ≤ callLimit c.shared subId) ?_ ?_ h
  · intro c x hle hlimit
    have hturn := countActiveCalls_resume x.2 (c.fiber x.1) c.shared subId
    rw [max_eq_right hle] at hturn
    exact hturn.trans hlimit
  · show countActiveCalls c.shared subId ≤ _
    rw [countActiveCalls, hc]
    exact Nat.zero_le _

/-- Two calls of a subscriber with one channel, with a sweep in between. -/
def twoCalls : Fibers (Fin 3) where
  shared := shop 10 1 1 0
  fiber
    | 0 => .request (.authorizeCall (aliceCall "c1"))
    | 1 => .request (.authorizeCall (aliceCall "c2"))
    | 2 => .cleaner .awake

/-- The second of the two calls is refused. -/
theorem countActiveCalls_le_callLimit_two_calls :
    countActiveCalls
        (run Fibers.turn twoCalls [(0, ⟨noon, true⟩), (2, ⟨noon, true⟩), (1, ⟨noon, true⟩)]).shared
        (ascii "alice") ≤
      callLimit
        (run Fibers.turn twoCalls [(0, ⟨noon, true⟩), (2, ⟨noon, true⟩), (1, ⟨noon, true⟩)]).shared
        (ascii "alice") :=
  countActiveCalls_le_callLimit rfl (by decide +kernel)

end VoipBackend
