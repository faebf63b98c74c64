import VoipBackend.Backend.Fibers
import VoipBackend.Backend.Sessions

/-!
# All fibers of the backend

The requests of the media relays run beside those of the proxies and the TTL cleaner.
`call_upsert` looks the call up and writes it without being suspended in between, and
`call_delete` is one write, so each is one turn.

`expiry_resume` says what a turn can do to the `expires_at` of a tuple of a drained
space: nothing, unless the turn is the registration of a call or the authorisation of a
dialog, and then it is the one this turn writes (`Worker.registers`).
-/

namespace VoipBackend

open Library

/-- A request to the media service. -/
inductive SessionOp where
  | callUpsert (a : CallUpsertArgs)
  | callDelete (callId : LuaValue)

/-- A fiber of the backend. -/
inductive Worker where
  /-- A billing request or the TTL cleaner. -/
  | backend (fib : Fiber)
  /-- A request to the media service that has not started. -/
  | session (op : SessionOp)
  /-- A request to the media service that has been answered. -/
  | answered (reply : Except LuaError SessionReply)

/-- One turn of a fiber. -/
def Worker.resume (env : Env) : Worker → Box → Worker × Box
  | .backend fib, b => (.backend (VoipBackend.resume env fib b).1, (VoipBackend.resume env fib b).2)
  | .session (.callUpsert a), b =>
      (.answered (callUpsert env.now a b).1, (callUpsert env.now a b).2)
  | .session (.callDelete callId), b =>
      (.answered (.ok (callDelete callId b).1), (callDelete callId b).2)
  | .answered reply, b => (.answered reply, b)

/-- The fibers of the backend over its spaces. -/
abbrev Workers (ι : Type) := Config ι Box Worker

/-- The turn of one fiber. -/
abbrev Workers.turn {ι : Type} [DecidableEq ι] (c : Workers ι) (a : ι × Env) : Workers ι :=
  Config.turn Worker.resume c a

/-! ## Expiry -/

/-- `expires_at` of the tuple under a key. -/
def Box.expiry (b : Box) (key : LuaString) : DrainedSpace → Option ℕ
  | .rtpeCalls => (b.rtpeCalls.get key).map RtpeCall.expiresAt
  | .kamDialogs => (b.kamDialogs.get key).map Dialog.expiresAt
  | .kamUsrloc => (b.kamUsrloc.get key).map UsrLoc.expiresAt

/-- What a turn registers: the space, the key and the `expires_at` it writes. -/
def Worker.registers (env : Env) (b : Box) : Worker → Option (DrainedSpace × LuaString × ℕ)
  | .session (.callUpsert a) =>
      match (callUpsert env.now a b).1 with
      | .ok (.upserted callId _ expiresAt) => some (.rtpeCalls, callId, expiresAt)
      | _ => none
  | .backend (.request (.authorizeCall a)) =>
      match (authorizeCall env.now a b).1 with
      | .ok (.allowed g) =>
          (dialogExpiry env.now g.maxDurationSec).map fun expiresAt =>
            (.kamDialogs, a.callId, expiresAt)
      | _ => none
  | _ => none

/-- A delete leaves the other tuples as they are. -/
theorem expiry_deleteFrom (b : Box) (key k : LuaString) (space s : DrainedSpace) :
    (b.deleteFrom key space).expiry k s =
      if s = space ∧ k = key then none else b.expiry k s := by
  cases space <;> cases s <;>
    simp only [Box.deleteFrom, Box.deleteCall, Box.deleteDialog, Box.expiry,
      KeyedTable.get_delete, reduceCtorEq, true_and, false_and, if_false] <;>
    split_ifs <;> rfl

theorem expiry_of_deleteFrom {b : Box} {key k : LuaString} (space : DrainedSpace)
    {s : DrainedSpace} {e : ℕ} (h : (b.deleteFrom key space).expiry k s = some e) :
    b.expiry k s = some e := by
  rw [expiry_deleteFrom] at h
  split_ifs at h
  exact h

theorem expiry_of_deleteCall {b : Box} {key k : LuaString} {s : DrainedSpace} {e : ℕ}
    (h : (b.deleteCall key).expiry k s = some e) : b.expiry k s = some e :=
  expiry_of_deleteFrom .rtpeCalls h

theorem expiry_of_deleteDialog {b : Box} {key k : LuaString} {s : DrainedSpace} {e : ℕ}
    (h : (b.deleteDialog key).expiry k s = some e) : b.expiry k s = some e :=
  expiry_of_deleteFrom .kamDialogs h

/-- A registered dialog expires when the grant and the grace period are over. -/
theorem expiry_authorizeCall {now : Clock} {a : AuthorizeArgs} {b : Box} {k : LuaString}
    {s : DrainedSpace} {e : ℕ} (h : (authorizeCall now a b).2.expiry k s = some e) :
    b.expiry k s = some e ∨
      ∃ g, (authorizeCall now a b).1 = .ok (.allowed g) ∧
        dialogExpiry now g.maxDurationSec = some e ∧ s = .kamDialogs ∧ k = a.callId := by
  rcases authorizeCall_cases now a b with ⟨hbox, -⟩ | ⟨sub, expiresAt, -, -, -, hexp, heq⟩
  · rw [hbox] at h
    exact Or.inl h
  · rw [heq] at h
    cases s with
    | rtpeCalls => exact Or.inl h
    | kamUsrloc => exact Or.inl h
    | kamDialogs =>
      change ((b.upsertDialog _).kamDialogs.get k).map Dialog.expiresAt = some e at h
      rw [get_upsertDialog] at h
      split_ifs at h with hk
      · refine Or.inr ⟨_, by rw [heq], ?_, rfl, hk⟩
        rw [hexp, ← h]
        cases b.kamDialogs.get (newDialog now a (matchTariff b a.callee) expiresAt).callId <;> rfl
      · exact Or.inl h

/-- A registered call expires when its time to live is over. -/
theorem expiry_callUpsert {now : Clock} {a : CallUpsertArgs} {b : Box} {k : LuaString}
    {s : DrainedSpace} {e : ℕ} (h : (callUpsert now a b).2.expiry k s = some e) :
    b.expiry k s = some e ∨
      (callUpsert now a b).1 = .ok (.upserted k now.epoch e) ∧ s = .rtpeCalls := by
  rcases callUpsert_cases now a b with ⟨hbox, -⟩ | ⟨callId, c, -, hrow, heq⟩
  · rw [hbox] at h
    exact Or.inl h
  · obtain ⟨-, hcid, -⟩ := row_eq_ok hrow
    rw [heq] at h ⊢
    cases s with
    | kamDialogs => exact Or.inl h
    | kamUsrloc => exact Or.inl h
    | rtpeCalls =>
      simp only [Box.expiry, KeyedTable.get_put, hcid] at h
      by_cases hk : k = callId
      · rw [if_pos hk, Option.map_some] at h
        rw [hk, Option.some.inj h]
        exact Or.inr ⟨rfl, rfl⟩
      · rw [if_neg hk] at h
        exact Or.inl h

theorem expiry_callDelete {callId : LuaValue} {b : Box} {k : LuaString} {s : DrainedSpace} {e : ℕ}
    (h : (callDelete callId b).2.expiry k s = some e) : b.expiry k s = some e := by
  cases callId with
  | string callId =>
    rw [callDelete_string] at h
    exact expiry_of_deleteCall h
  | _ => exact h

/-- The first stretch of a teardown leaves the drained spaces alone. -/
theorem expiry_startFinalizeCdr (now : Clock) (a : FinalizeArgs) (b : Box) (k : LuaString)
    (s : DrainedSpace) : (startFinalizeCdr now a b).2.expiry k s = b.expiry k s := by
  unfold startFinalizeCdr
  cases hsub : b.subscribers.get (finalizeLocals now a b).caller with
  | none =>
    simp only [hsub, FinalizeFrame.storeCdr]
    split <;> cases s <;> rfl
  | some sub =>
    simp only [hsub]
    cases s <;> rfl

theorem expiry_storeCdr (f : FinalizeFrame) (b : Box) (k : LuaString) (s : DrainedSpace) :
    (f.storeCdr b).2.expiry k s = b.expiry k s := by
  unfold FinalizeFrame.storeCdr
  split <;> cases s <;> rfl

/-- **What a turn can do to an expiry.**  A tuple that is there after a turn was there
before with the same `expires_at`, or the turn registered it. -/
theorem expiry_resume {env : Env} {w : Worker} {b : Box} {k : LuaString} {s : DrainedSpace} {e : ℕ}
    (h : (w.resume env b).2.expiry k s = some e) :
    b.expiry k s = some e ∨ w.registers env b = some (s, k, e) := by
  match w with
  | .session (.callUpsert a) =>
    rcases expiry_callUpsert h with h | ⟨hreply, rfl⟩
    · exact Or.inl h
    · exact Or.inr (by simp only [Worker.registers, hreply])
  | .session (.callDelete callId) => exact Or.inl (expiry_callDelete h)
  | .answered reply => exact Or.inl h
  | .backend (.request (.authorizeCall a)) =>
    rcases expiry_authorizeCall h with h | ⟨g, hreply, hexp, rfl, rfl⟩
    · exact Or.inl h
    · exact Or.inr (by simp only [Worker.registers, hreply, hexp, Option.map_some])
  | .backend (.request (.finalizeCdr a)) =>
    exact Or.inl ((expiry_startFinalizeCdr env.now a b k s).symm.trans h)
  | .backend (.request (.setTariff a)) =>
    cases s <;> exact Or.inl h
  | .backend (.request (.addSubscriber a)) =>
    change (addSubscriber env.now a b).2.expiry k s = some e at h
    rw [addSubscriber_frame] at h
    cases s <;> exact Or.inl h
  | .backend (.request (.updateBalance subId deltaAmount)) =>
    change (updateBalance env.now subId deltaAmount b).2.expiry k s = some e at h
    rw [updateBalance_frame] at h
    cases s <;> exact Or.inl h
  | .backend (.storingCdr f) => exact Or.inl ((expiry_storeCdr f b k s).symm.trans h)
  | .backend (.deletingDialog f) => exact Or.inl (expiry_of_deleteDialog h)
  | .backend (.deletingCall f) => exact Or.inl (expiry_of_deleteCall h)
  | .backend (.cleaner w) =>
    change (w.resume env.now env.isRunning b).2.expiry k s = some e at h
    rcases w.resume_cases env.now env.isRunning b with hbox | ⟨key, space, hbox⟩
    · rw [hbox] at h
      exact Or.inl h
    · rw [hbox] at h
      exact Or.inl (expiry_of_deleteFrom space h)
  | .backend (.done outcome) => exact Or.inl h

end VoipBackend
