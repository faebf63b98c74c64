import VoipBackend.Backend.Billing

/-!
# What the billing procedures do

One law for each procedure, so that later files never unfold one: the two ways
`authorize_call` can end, and what `finalize_cdr` does to each space.  The rest
of the file works out the two prices a call has: the seconds `authorize_call`
grants for a balance and the minutes `finalize_cdr` charges for.
-/

namespace VoipBackend

open Library

/-! ## Authorisation -/

/-- **Everything `authorize_call` can do.**  Either it leaves the spaces alone
and does not allow the call, or every check passed and it registers the dialog. -/
theorem authorizeCall_cases (now : Clock) (a : AuthorizeArgs) (b : Box) :
    ((authorizeCall now a b).2 = b ∧ ∀ g, (authorizeCall now a b).1 ≠ .ok (.allowed g)) ∨
    ∃ sub expiresAt, b.subscribers.get a.caller = some sub ∧
      countActiveCalls b a.caller < sub.maxConcurrentCalls ∧
      totalMinRequired (matchTariff b a.callee) ≤ sub.balance ∧
      dialogExpiry now (maxDurationSec sub.balance (matchTariff b a.callee)) = some expiresAt ∧
      authorizeCall now a b =
        (.ok (.allowed ⟨maxDurationSec sub.balance (matchTariff b a.callee),
            (matchTariff b a.callee).ratePerMin, (matchTariff b a.callee).tariffName,
            sub.currency⟩),
          b.upsertDialog (newDialog now a (matchTariff b a.callee) expiresAt)) := by
  unfold authorizeCall
  cases hsub : b.subscribers.get a.caller with
  | none => exact Or.inl ⟨rfl, by simp⟩
  | some sub =>
    by_cases hstatus : sub.status ≠ ascii "active"
    · simp [hstatus]
    by_cases hmax : sub.maxConcurrentCalls ≤ countActiveCalls b a.caller
    · simp [hstatus, hmax]
    by_cases hfunds : sub.balance < totalMinRequired (matchTariff b a.callee)
    · simp [hstatus, hmax, hfunds]
    cases hexp : dialogExpiry now (maxDurationSec sub.balance (matchTariff b a.callee)) with
    | none => simp [hstatus, hmax, hfunds, hexp]
    | some expiresAt =>
      refine Or.inr ⟨sub, expiresAt, rfl, not_le.1 hmax, not_lt.1 hfunds, hexp, ?_⟩
      simp [hstatus, hmax, hfunds, hexp]

/-- Only `kam_dialogs` is written by `authorize_call`. -/
theorem authorizeCall_frame (now : Clock) (a : AuthorizeArgs) (b : Box) :
    (authorizeCall now a b).2 = { b with kamDialogs := (authorizeCall now a b).2.kamDialogs } := by
  rcases authorizeCall_cases now a b with ⟨h, -⟩ | ⟨sub, expiresAt, -, -, -, -, h⟩
  · rw [h]
  · rw [h]
    rfl

@[simp] theorem refreshDialog_callId (expiresAt : ℕ) (dlg : Dialog) :
    (refreshDialog expiresAt dlg).callId = dlg.callId := rfl

@[simp] theorem newDialog_callId (now : Clock) (a : AuthorizeArgs) (r : Rating) (expiresAt : ℕ) :
    (newDialog now a r expiresAt).callId = a.callId := rfl

@[simp] theorem newDialog_fromTag (now : Clock) (a : AuthorizeArgs) (r : Rating) (expiresAt : ℕ) :
    (newDialog now a r expiresAt).fromTag = a.caller := rfl

/-- After an upsert the call id holds the new dialog, or the old one refreshed. -/
theorem get_upsertDialog (b : Box) (dlg : Dialog) (k : LuaString) :
    (b.upsertDialog dlg).kamDialogs.get k =
      if k = dlg.callId then
        some (((b.kamDialogs.get dlg.callId).map (refreshDialog dlg.expiresAt)).getD dlg)
      else b.kamDialogs.get k :=
  KeyedTable.get_upsert (t := b.kamDialogs) (f := refreshDialog dlg.expiresAt) (fun _ => rfl) dlg k

/-! ## Teardown -/

theorem get_deduct (f : FinalizeFrame) (b : Box) (k : LuaString) :
    (f.deduct b).subscribers.get k =
      if k = f.caller then (b.subscribers.get f.caller).map f.charge else b.subscribers.get k :=
  KeyedTable.get_update (t := b.subscribers) (f := f.charge) (fun _ => rfl) f.caller k

/-- `finalize_cdr` debits first, whatever becomes of the rest. -/
theorem finalizeCdr_subscribers (now : Clock) (a : FinalizeArgs) (b : Box) :
    (finalizeCdr now a b).2.subscribers =
      ((finalizeLocals now a b).deduct b).subscribers := by
  unfold finalizeCdr
  cases h : (finalizeLocals now a b).row.check with
  | error e => simp [h]
  | ok cdr => simp [h, Box.storeCdr, Box.deleteDialog, Box.deleteCall]

/-- A tuple that fits the format of `cdrs` is stored, and the call is cleaned up. -/
theorem finalizeCdr_of_ok {now : Clock} {a : FinalizeArgs} {b : Box} {cdr : Cdr}
    (h : (finalizeLocals now a b).row.check = .ok cdr) :
    finalizeCdr now a b = (.ok (finalizeLocals now a b).reply,
      ((((finalizeLocals now a b).deduct b).storeCdr cdr).deleteDialog a.callId).deleteCall
        a.callId) := by
  simp only [finalizeCdr, h]

/-- A tuple that does not fit raises, with the debit made and nothing else. -/
theorem finalizeCdr_of_error {now : Clock} {a : FinalizeArgs} {b : Box} {e : LuaError}
    (h : (finalizeLocals now a b).row.check = .error e) :
    finalizeCdr now a b = (.error e, (finalizeLocals now a b).deduct b) := by
  simp only [finalizeCdr, h]

/-- **The two ways `finalize_cdr` can end.** -/
theorem finalizeCdr_cases (now : Clock) (a : FinalizeArgs) (b : Box) :
    (∃ cdr, (finalizeLocals now a b).row.check = .ok cdr ∧
      finalizeCdr now a b = (.ok (finalizeLocals now a b).reply,
        ((((finalizeLocals now a b).deduct b).storeCdr cdr).deleteDialog a.callId).deleteCall
          a.callId)) ∨
    ∃ e, (finalizeLocals now a b).row.check = .error e ∧
      finalizeCdr now a b = (.error e, (finalizeLocals now a b).deduct b) := by
  cases h : (finalizeLocals now a b).row.check with
  | ok cdr => exact Or.inl ⟨cdr, rfl, finalizeCdr_of_ok h⟩
  | error e => exact Or.inr ⟨e, rfl, finalizeCdr_of_error h⟩

/-! ## Counting dialogs -/

/-- The calls a caller has, as a total over the dialogs. -/
theorem countActiveCalls_eq_sumOf (b : Box) (caller : LuaString) :
    countActiveCalls b caller =
      b.kamDialogs.sumOf fun dlg => if dlg.fromTag = caller then 1 else 0 := by
  unfold countActiveCalls KeyedTable.sumOf
  induction b.kamDialogs.rows with
  | nil => rfl
  | cons dlg l ih =>
    rw [List.countP_cons, ih, List.map_cons, List.sum_cons]
    simp [add_comm]

/-! ## The two prices of a call -/

/-- With a positive rate the grant is the whole seconds the balance pays for,
cut off at a day. -/
theorem maxDurationSec_of_pos (balance : ℚ) {r : Rating} (hr : 0 < r.ratePerMin) :
    maxDurationSec balance r =
      .fin (min ⌊(balance - r.connectFee) / r.ratePerMin * 60⌋ 86400 : ℤ) := by
  unfold maxDurationSec LuaNumber.div
  rw [if_pos hr.ne']
  simp only [LuaNumber.scale, LuaNumber.floor, LuaNumber.gt, decide_eq_true_eq]
  split_ifs with h
  · have h' : (86400 : ℤ) ≤ ⌊(balance - r.connectFee) / r.ratePerMin * 60⌋ := by
      exact_mod_cast h.le
    rw [min_eq_right h']
    norm_num
  · have h' : ⌊(balance - r.connectFee) / r.ratePerMin * 60⌋ ≤ (86400 : ℤ) := by
      exact_mod_cast not_lt.1 h
    rw [min_eq_left h']

/-- Charged minutes, without the special case of a call of no length. -/
theorem billableMinutes_eq (dur : ℚ) : billableMinutes dur = ⌈dur / 60⌉ := by
  unfold billableMinutes
  split_ifs with h
  · simp [h]
  · rfl

end VoipBackend
