import VoipBackend.Backend.Rating
import VoipBackend.Backend.Sessions
import VoipBackend.Backend.Sweep

/-!
# Does an answer depend on when the cleaner ran?

A tuple that has expired stays in its space until the next sweep.  Readers that take
it for absent answer alike before and after the sweep; this file asks it of the three
readers of `rtpe_calls` and `kam_dialogs`.

`call_restore` compares `expires_at` with the clock, and never notices a sweep.
`call_get` returns whatever is stored, and `count_active_calls` counts whatever the
index holds, so `authorize_call` may refuse a call because of channels that have
expired.  `sameAnswer_iff` says of every state and every request when the answer is the
same; `answers_change` shows two that are not.
-/

namespace VoipBackend

open Library

/-! ## Requests and answers -/

/-- A request that reads `rtpe_calls` or `kam_dialogs`. -/
inductive Query where
  | callGet (callId : LuaValue)
  | callRestore (nodeId : LuaValue)
  | authorizeCall (a : AuthorizeArgs)

/-- `allowed` and `reason` of the answer of `authorize_call`. -/
inductive Verdict where
  | allowed
  | refused (reason : Refusal)
  deriving DecidableEq

def AuthorizeReply.verdict : AuthorizeReply → Verdict
  | .refused reason => .refused reason
  | .allowed _ => .allowed

/-- What a request is answered. -/
inductive Answer where
  | call (c : Option RtpeCall)
  | calls (l : List RestoredCall)
  | verdict (v : Except LuaError Verdict)

/-- The answer to a request at a given time. -/
def answer (now : Clock) (b : Box) : Query → Answer
  | .callGet callId => .call (callGet callId b)
  | .callRestore nodeId => .calls (callRestore now nodeId b)
  | .authorizeCall a => .verdict ((authorizeCall now a b).1.map AuthorizeReply.verdict)

/-- A sweep right before the request makes no difference to the answer. -/
def SameAnswer (now : Clock) (b : Box) (q : Query) : Prop :=
  answer now (sweep now b) q = answer now b q

/-- The dialogs of a caller that have not expired. -/
def liveCalls (now : ℕ) (b : Box) (caller : LuaString) : ℕ :=
  b.kamDialogs.rows.countP fun dlg => decide (dlg.fromTag = caller) && decide (now < dlg.expiresAt)

/-- When the answer does not depend on a sweep.

* The call `call_get` asks for has not expired.
* `call_restore` always.
* The caller is at its limit without the dialogs that have expired, if it is with them. -/
def Insensitive (now : ℕ) (b : Box) : Query → Prop
  | .callGet (.string callId) => ∀ c, b.rtpeCalls.get callId = some c → now < c.expiresAt
  | .callGet _ => True
  | .callRestore _ => True
  | .authorizeCall a =>
      ∀ sub, b.subscribers.get a.caller = some sub → sub.status = ascii "active" →
        sub.maxConcurrentCalls ≤ countActiveCalls b a.caller →
        sub.maxConcurrentCalls ≤ liveCalls now b a.caller

/-! ## Media sessions -/

theorem callGet_sweep (now : Clock) (b : Box) (callId : LuaString) :
    callGet (.string callId) (sweep now b) =
      (callGet (.string callId) b).filter fun c => decide (now.epoch < c.expiresAt) := by
  rw [sweep_eq]
  exact KeyedTable.get_filter _ _ _

theorem callGet_sweep_iff (now : Clock) (b : Box) (callId : LuaString) :
    callGet (.string callId) (sweep now b) = callGet (.string callId) b ↔
      ∀ c, b.rtpeCalls.get callId = some c → now.epoch < c.expiresAt := by
  rw [callGet_sweep]
  show (b.rtpeCalls.get callId).filter _ = b.rtpeCalls.get callId ↔ _
  cases hget : b.rtpeCalls.get callId with
  | none => simp
  | some c =>
    rw [Option.filter_some]
    by_cases hlive : now.epoch < c.expiresAt <;> simp [hlive]

theorem callsOf_sweep (now : Clock) (b : Box) (nodeId : LuaValue) :
    callsOf nodeId (sweep now b) =
      (callsOf nodeId b).filter fun c => decide (now.epoch < c.expiresAt) := by
  rw [sweep_eq]
  unfold callsOf
  split
  · rfl
  · rw [KeyedTable.scanAsc_filter, List.filter_filter, List.filter_filter]
    refine List.filter_congr fun c _ => ?_
    rw [Bool.and_comm]
  · rfl

/-- `call_restore` leaves out what a sweep removes. -/
theorem callRestore_sweep (now : Clock) (b : Box) (nodeId : LuaValue) :
    callRestore now nodeId (sweep now b) = callRestore now nodeId b := by
  unfold callRestore
  rw [callsOf_sweep, List.filter_filter]
  simp

/-! ## Authorisation -/

theorem countActiveCalls_sweep (now : Clock) (b : Box) (caller : LuaString) :
    countActiveCalls (sweep now b) caller = liveCalls now.epoch b caller := by
  rw [sweep_eq]
  exact List.countP_filter ..

theorem liveCalls_le (now : ℕ) (b : Box) (caller : LuaString) :
    liveCalls now b caller ≤ countActiveCalls b caller := by
  refine List.countP_mono_left fun dlg _ h => ?_
  rw [Bool.and_eq_true] at h
  exact h.1

/-- A subscriber at its limit is told so. -/
theorem verdict_of_full {now : Clock} {a : AuthorizeArgs} {b : Box} {sub : Subscriber}
    (hsub : b.subscribers.get a.caller = some sub) (hactive : sub.status = ascii "active")
    (hfull : sub.maxConcurrentCalls ≤ countActiveCalls b a.caller) :
    (authorizeCall now a b).1.map AuthorizeReply.verdict =
      .ok (.refused .maxConcurrentCallsExceeded) := by
  unfold authorizeCall
  simp [hsub, hactive, hfull, Except.map, AuthorizeReply.verdict]

/-- A subscriber below its limit is told anything else. -/
theorem verdict_of_not_full {now : Clock} {a : AuthorizeArgs} {b : Box} {sub : Subscriber}
    (hsub : b.subscribers.get a.caller = some sub)
    (hfull : ¬ sub.maxConcurrentCalls ≤ countActiveCalls b a.caller) :
    (authorizeCall now a b).1.map AuthorizeReply.verdict ≠
      .ok (.refused .maxConcurrentCallsExceeded) := by
  unfold authorizeCall
  simp only [hsub, hfull, if_false]
  split_ifs
  · simp [Except.map, AuthorizeReply.verdict]
  · simp [Except.map, AuthorizeReply.verdict]
  · split <;> simp [Except.map, AuthorizeReply.verdict]

/-- The answer depends on the dialogs through the limit only. -/
theorem authorizeCall_sweep_reply {now : Clock} {a : AuthorizeArgs} {b : Box}
    (h : ∀ sub, b.subscribers.get a.caller = some sub → sub.status = ascii "active" →
      (sub.maxConcurrentCalls ≤ liveCalls now.epoch b a.caller ↔
        sub.maxConcurrentCalls ≤ countActiveCalls b a.caller)) :
    (authorizeCall now a (sweep now b)).1 = (authorizeCall now a b).1 := by
  have hsubs : (sweep now b).subscribers = b.subscribers := by rw [sweep_eq]
  have hrate : matchTariff (sweep now b) a.callee = matchTariff b a.callee := by
    rw [sweep_eq]
    rfl
  unfold authorizeCall
  rw [hsubs, countActiveCalls_sweep, hrate]
  cases hsub : b.subscribers.get a.caller with
  | none => rfl
  | some sub =>
    by_cases hactive : sub.status = ascii "active"
    · have hlimit := h sub hsub hactive
      by_cases hfull : sub.maxConcurrentCalls ≤ countActiveCalls b a.caller
      · simp [hactive, hfull, hlimit.2 hfull]
      · simp only [hactive, ne_eq, not_true_eq_false, if_false, hfull, mt hlimit.1 hfull]
        split_ifs
        · rfl
        · split <;> rfl
    · simp [hactive]

/-! ## The result -/

/-- **When a sweep makes no difference.**  For every state, time and request. -/
theorem sameAnswer_iff (now : Clock) (b : Box) (q : Query) :
    SameAnswer now b q ↔ Insensitive now.epoch b q := by
  unfold SameAnswer
  cases q with
  | callGet callId =>
    simp only [answer, Answer.call.injEq]
    cases callId with
    | string callId => exact callGet_sweep_iff now b callId
    | _ => simp only [callGet, Insensitive]
  | callRestore nodeId => simp only [answer, callRestore_sweep, Insensitive]
  | authorizeCall a =>
    simp only [answer, Answer.verdict.injEq, Insensitive]
    have hle := liveCalls_le now.epoch b a.caller
    constructor
    · -- a limit that only the expired dialogs reach is told without the sweep alone
      intro hsame sub hsub hactive hfull
      by_contra hlive
      have hsub' : (sweep now b).subscribers.get a.caller = some sub := by
        rw [sweep_eq]
        exact hsub
      rw [verdict_of_full hsub hactive hfull] at hsame
      rw [← countActiveCalls_sweep] at hlive
      exact verdict_of_not_full hsub' hlive hsame
    · intro h
      rw [authorizeCall_sweep_reply fun sub hsub hactive =>
        ⟨fun hlive => hlive.trans hle, h sub hsub hactive⟩]

/-! ## Two requests that notice -/

/-- A call and a dialog that expired at noon, of a subscriber with one channel. -/
def staleShop : Box :=
  { shop 10 1 1 0 with
    rtpeCalls := KeyedTable.empty.put
      ⟨ascii "c1", ascii "rtpe-01", ascii "active", 0, 0, noon.epoch, .string []⟩
    kamDialogs := KeyedTable.empty.put
      ⟨ascii "c1", ascii "alice", ascii "79991234567", 1, noon.epoch, none⟩ }

/-- **Answers that depend on the cleaner.**  At noon `call_get` finds the expired call, and
after a sweep it does not; `authorize_call` refuses the subscriber because of the expired
dialog, and after a sweep it allows the call. -/
theorem answers_change :
    ¬ SameAnswer noon staleShop (.callGet (.string (ascii "c1"))) ∧
      ¬ SameAnswer noon staleShop (.authorizeCall (aliceCall "c2")) := by
  constructor
  · intro h
    have hget := congrArg (fun ans => match ans with
      | Answer.call c => c.map RtpeCall.callId
      | _ => none) h
    revert hget
    decide +kernel
  · intro h
    have hverdict := Answer.verdict.inj h
    revert hverdict
    decide +kernel

end VoipBackend
