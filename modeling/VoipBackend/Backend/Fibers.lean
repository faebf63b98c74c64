import VoipBackend.Lib.Execution
import VoipBackend.Backend.Sequential
import VoipBackend.Backend.TtlWorker

/-!
# The procedures as fibers

Under `wal_mode = 'write'` and without a transaction around them, the writes of a
procedure are committed one by one: a write is visible to every fiber at once, and
the fiber that made it is suspended until the log has it.  A turn of a fiber
therefore runs from one write up to and including the next, and in between other
fibers may take any number of turns.

`resume` is one turn.  `finalize_cdr` takes up to four of them: the debit, the CDR,
the dialog, the media session; the other procedures make one write at most.  A
fiber that is resumed four times with nobody in between does what `finalize_cdr`
does in `Billing` (`finalizeCdr_alone`).
-/

namespace VoipBackend

open Library

/-- What a fiber ended with. -/
inductive Outcome where
  | authorized (reply : Except LuaError AuthorizeReply)
  | finalized (reply : Except LuaError FinalizeReply)
  | provisioned (reply : Except LuaError ProvisionReply)
  | tariffSet

/-- Where a fiber is, with the local variables it still needs. -/
inductive Fiber where
  /-- A request that has not started. -/
  | request (op : Op)
  /-- `finalize_cdr` after its debit. -/
  | storingCdr (f : FinalizeFrame)
  /-- `finalize_cdr` after its CDR. -/
  | deletingDialog (f : FinalizeFrame)
  /-- `finalize_cdr` after the removal of the dialog. -/
  | deletingCall (f : FinalizeFrame)
  /-- The TTL cleaner. -/
  | cleaner (w : Cleaner)
  /-- A fiber that has returned or raised. -/
  | done (outcome : Outcome)

/-- What a fiber reads from outside the spaces: the clock and the flag `is_running`
of the TTL worker. -/
structure Env where
  now : Clock
  isRunning : Bool

/-- The stretch of `finalize_cdr` that writes the CDR. -/
def FinalizeFrame.storeCdr (f : FinalizeFrame) (b : Box) : Fiber × Box :=
  match f.row.check with
  | .error e => (.done (.finalized (.error e)), b)
  | .ok cdr => (.deletingDialog f, b.storeCdr cdr)

/-- The first stretch of `finalize_cdr`: up to the debit or, if there is no subscriber
to debit, up to the CDR. -/
def startFinalizeCdr (now : Clock) (a : FinalizeArgs) (b : Box) : Fiber × Box :=
  let f := finalizeLocals now a b
  match b.subscribers.get f.caller with
  | none => f.storeCdr b
  | some _ => (.storingCdr f, f.deduct b)

/-- The first stretch of a request. -/
def start (now : Clock) (b : Box) : Op → Fiber × Box
  | .addSubscriber a => ((.done (.provisioned (addSubscriber now a b).1)), (addSubscriber now a b).2)
  | .updateBalance subId deltaAmount =>
      (.done (.provisioned (updateBalance now subId deltaAmount b).1),
        (updateBalance now subId deltaAmount b).2)
  | .setTariff a => (.done .tariffSet, setTariff a b)
  | .authorizeCall a => (.done (.authorized (authorizeCall now a b).1), (authorizeCall now a b).2)
  | .finalizeCdr a => startFinalizeCdr now a b

/-- One turn of a fiber. -/
def resume (env : Env) : Fiber → Box → Fiber × Box
  | .request op, b => start env.now b op
  | .storingCdr f, b => f.storeCdr b
  | .deletingDialog f, b => (.deletingCall f, b.deleteDialog f.args.callId)
  | .deletingCall f, b => (.done (.finalized (.ok f.reply)), b.deleteCall f.args.callId)
  | .cleaner w, b =>
      (.cleaner (w.resume env.now env.isRunning b).1, (w.resume env.now env.isRunning b).2)
  | .done outcome, b => (.done outcome, b)

/-- The fibers of the backend over its spaces. -/
abbrev Fibers (ι : Type) := Config ι Box Fiber

/-- The turn of one fiber. -/
abbrev Fibers.turn {ι : Type} [DecidableEq ι] (c : Fibers ι) (a : ι × Env) : Fibers ι :=
  Config.turn resume c a

/-! ## The stretches of a teardown -/

/-- The debit is a write only if the subscriber is there. -/
theorem deduct_of_get_none {f : FinalizeFrame} {b : Box} (h : b.subscribers.get f.caller = none) :
    f.deduct b = b := by
  unfold FinalizeFrame.deduct
  rw [KeyedTable.update, h]

/-- Whatever its first stretch reaches, it makes the debit. -/
theorem startFinalizeCdr_subscribers (now : Clock) (a : FinalizeArgs) (b : Box) :
    (startFinalizeCdr now a b).2.subscribers = ((finalizeLocals now a b).deduct b).subscribers := by
  unfold startFinalizeCdr
  cases hsub : b.subscribers.get (finalizeLocals now a b).caller with
  | none =>
    simp only [hsub, deduct_of_get_none hsub, FinalizeFrame.storeCdr]
    split <;> rfl
  | some sub => simp only [hsub]

/-- The dialogs stay as they are until the CDR is written. -/
theorem startFinalizeCdr_kamDialogs (now : Clock) (a : FinalizeArgs) (b : Box) :
    (startFinalizeCdr now a b).2.kamDialogs = b.kamDialogs := by
  unfold startFinalizeCdr
  cases hsub : b.subscribers.get (finalizeLocals now a b).caller with
  | none =>
    simp only [hsub, FinalizeFrame.storeCdr]
    split <;> rfl
  | some sub =>
    simp only [hsub]
    rfl

@[simp] theorem storeCdr_subscribers (f : FinalizeFrame) (b : Box) :
    (f.storeCdr b).2.subscribers = b.subscribers := by
  unfold FinalizeFrame.storeCdr
  split <;> rfl

@[simp] theorem storeCdr_kamDialogs (f : FinalizeFrame) (b : Box) :
    (f.storeCdr b).2.kamDialogs = b.kamDialogs := by
  unfold FinalizeFrame.storeCdr
  split <;> rfl

/-! ## Teardown fibers -/

/-- The arguments of a teardown that has not started yet. -/
def Fiber.pending : Fiber → Option FinalizeArgs
  | .request (.finalizeCdr a) => some a
  | _ => none

/-- A teardown, at some point of it. -/
def Fiber.IsTeardown : Fiber → Prop
  | .request (.finalizeCdr _) => True
  | .request _ => False
  | .cleaner _ => False
  | _ => True

theorem isTeardown_storeCdr (f : FinalizeFrame) (b : Box) : (f.storeCdr b).1.IsTeardown := by
  unfold FinalizeFrame.storeCdr
  split <;> trivial

theorem isTeardown_startFinalizeCdr (now : Clock) (a : FinalizeArgs) (b : Box) :
    (startFinalizeCdr now a b).1.IsTeardown := by
  unfold startFinalizeCdr
  simp only
  split
  · exact isTeardown_storeCdr _ _
  · trivial

/-- A teardown stays one. -/
theorem isTeardown_resume {fib : Fiber} (h : fib.IsTeardown) (env : Env) (b : Box) :
    (resume env fib b).1.IsTeardown := by
  match fib with
  | .request (.finalizeCdr a) => exact isTeardown_startFinalizeCdr env.now a b
  | .storingCdr f => exact isTeardown_storeCdr f b
  | .deletingDialog f => trivial
  | .deletingCall f => trivial
  | .done outcome => trivial

theorem storeCdr_ne_request (f : FinalizeFrame) (b : Box) (op : Op) :
    (f.storeCdr b).1 ≠ .request op := by
  unfold FinalizeFrame.storeCdr
  split <;> simp

/-- A fiber that has taken a turn is not waiting to start. -/
theorem resume_ne_request (env : Env) (fib : Fiber) (b : Box) (op : Op) :
    (resume env fib b).1 ≠ .request op := by
  cases fib with
  | request op' =>
    cases op' with
    | finalizeCdr a =>
      show (startFinalizeCdr env.now a b).1 ≠ _
      unfold startFinalizeCdr
      simp only
      split
      · exact storeCdr_ne_request _ b op
      · simp
    | _ => simp [resume, start]
  | storingCdr f => exact storeCdr_ne_request f b op
  | _ => simp [resume]

/-- After its first stretch a teardown leaves the subscribers alone. -/
theorem resume_subscribers {fib : Fiber} (h : fib.IsTeardown) (hstarted : fib.pending = none)
    (env : Env) (b : Box) : (resume env fib b).2.subscribers = b.subscribers := by
  match fib with
  | .request (.finalizeCdr a) => cases hstarted
  | .storingCdr f => exact storeCdr_subscribers f b
  | .deletingDialog f => rfl
  | .deletingCall f => rfl
  | .done outcome => rfl

theorem eq_request_of_pending {fib : Fiber} {a : FinalizeArgs} (h : fib.pending = some a) :
    fib = .request (.finalizeCdr a) := by
  match fib with
  | .request (.finalizeCdr a') =>
    cases h
    rfl

theorem pending_resume (env : Env) (fib : Fiber) (b : Box) :
    (resume env fib b).1.pending = none := by
  rw [Option.eq_none_iff_forall_not_mem]
  intro a ha
  exact resume_ne_request env fib b _ (eq_request_of_pending ha)

/-! ## A teardown on its own -/

theorem storeCdr_of_ok {f : FinalizeFrame} {cdr : Cdr} (h : f.row.check = .ok cdr) (b : Box) :
    f.storeCdr b = (.deletingDialog f, b.storeCdr cdr) := by
  unfold FinalizeFrame.storeCdr
  rw [h]

theorem storeCdr_of_error {f : FinalizeFrame} {e : LuaError} (h : f.row.check = .error e)
    (b : Box) : f.storeCdr b = (.done (.finalized (.error e)), b) := by
  unfold FinalizeFrame.storeCdr
  rw [h]

/-- The two stretches up to the CDR are one debit and one CDR, also when the debit is no
write. -/
theorem alone_start_storeCdr (now : Clock) (a : FinalizeArgs) (b : Box) (e : Env) :
    startFinalizeCdr now a b =
        (finalizeLocals now a b).storeCdr ((finalizeLocals now a b).deduct b) ∨
      resume e (startFinalizeCdr now a b).1 (startFinalizeCdr now a b).2 =
        (finalizeLocals now a b).storeCdr ((finalizeLocals now a b).deduct b) := by
  unfold startFinalizeCdr
  cases hsub : b.subscribers.get (finalizeLocals now a b).caller with
  | none =>
    refine Or.inl ?_
    simp only [hsub, deduct_of_get_none hsub]
  | some sub =>
    refine Or.inr ?_
    simp only [hsub]
    rfl

/-- From the CDR on two turns are enough, and a third changes nothing. -/
theorem alone_storeCdr (now : Clock) (a : FinalizeArgs) (b : Box) (e₂ e₃ e₄ : Env) :
    let p := (finalizeLocals now a b).storeCdr ((finalizeLocals now a b).deduct b)
    Config.alone resume p [e₃, e₄] =
        (.done (.finalized (finalizeCdr now a b).1), (finalizeCdr now a b).2) ∧
      Config.alone resume p [e₂, e₃, e₄] =
        (.done (.finalized (finalizeCdr now a b).1), (finalizeCdr now a b).2) := by
  rcases finalizeCdr_cases now a b with ⟨cdr, hcheck, heq⟩ | ⟨e, hcheck, heq⟩
  · rw [storeCdr_of_ok hcheck, heq]
    exact ⟨rfl, rfl⟩
  · rw [storeCdr_of_error hcheck, heq]
    exact ⟨rfl, rfl⟩

theorem alone_finalizeCdr (a : FinalizeArgs) (b : Box) (e₁ e₂ e₃ e₄ : Env) :
    Config.alone resume (.request (.finalizeCdr a), b) [e₁, e₂, e₃, e₄] =
      (.done (.finalized (finalizeCdr e₁.now a b).1), (finalizeCdr e₁.now a b).2) := by
  have hrest := alone_storeCdr e₁.now a b e₂ e₃ e₄
  show Config.alone resume (startFinalizeCdr e₁.now a b) [e₂, e₃, e₄] = _
  rcases alone_start_storeCdr e₁.now a b e₂ with h | h
  · rw [h]
    exact hrest.2
  · show Config.alone resume (resume e₂ (startFinalizeCdr e₁.now a b).1
      (startFinalizeCdr e₁.now a b).2) [e₃, e₄] = _
    rw [h]
    exact hrest.1

/-- **No one in between.**  Four turns in a row, at whatever times, are the
procedure `finalize_cdr` at the time of the first. -/
theorem finalizeCdr_alone {ι : Type} [DecidableEq ι] (c : Fibers ι) {i : ι} {a : FinalizeArgs}
    (h : c.fiber i = .request (.finalizeCdr a)) (e₁ e₂ e₃ e₄ : Env) :
    ((run Fibers.turn c [(i, e₁), (i, e₂), (i, e₃), (i, e₄)]).fiber i,
      (run Fibers.turn c [(i, e₁), (i, e₂), (i, e₃), (i, e₄)]).shared) =
        (.done (.finalized (finalizeCdr e₁.now a c.shared).1),
          (finalizeCdr e₁.now a c.shared).2) := by
  have hrun := Config.run_alone resume c i [e₁, e₂, e₃, e₄]
  rw [h, alone_finalizeCdr] at hrun
  exact hrun

end VoipBackend
