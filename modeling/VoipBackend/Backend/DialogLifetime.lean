import VoipBackend.Backend.Registration
import VoipBackend.Backend.Sweep
import VoipBackend.Backend.Workers

/-!
# The dialog of a call in progress

`authorize_call` registers a dialog that outlives the grant by five minutes.  Until then
no sweep takes it: a sweep collects what has expired by its own `now`, which is not after
the present, and it only ever collects keys that are there.  Requests for other calls
write other keys.

So in any interleaving of any number of fibers, a teardown that starts before the dialog
expires finds the terms of the authorisation and charges on them
(`charged_before_expiry`).  `Worker.LeavesDialog` is what the other fibers have to be like
for that, and what every turn of theirs keeps.
-/

namespace VoipBackend

open Library

/-- A fiber that is not about to touch the dialog of a call: it serves other calls or none,
and if it is the cleaner, the key does not wait to be deleted and the sweep did not begin
after `t`. -/
def Worker.LeavesDialog (callId : LuaString) (t : ℕ) : Worker → Prop
  | .backend (.request (.authorizeCall a)) => a.callId ≠ callId
  | .backend (.request (.finalizeCdr a)) => a.callId ≠ callId
  | .backend (.storingCdr f) => f.args.callId ≠ callId
  | .backend (.deletingDialog f) => f.args.callId ≠ callId
  | .backend (.cleaner (.deleting now space _ keys _ _)) =>
      now ≤ t ∧ (space = .kamDialogs → callId ∉ keys)
  | .backend (.cleaner (.yielding now _ _ _)) => now ≤ t
  | _ => True

/-! ## One turn -/

section Turn

variable {callId : LuaString} {t : ℕ} {env : Env} {b : Box}

theorem get_deleteFrom_of_ne {key : LuaString} {space : DrainedSpace}
    (h : space = .kamDialogs → callId ≠ key) :
    (b.deleteFrom key space).kamDialogs.get callId = b.kamDialogs.get callId := by
  cases space with
  | rtpeCalls => rfl
  | kamUsrloc => rfl
  | kamDialogs =>
    show (b.kamDialogs.delete key).get callId = _
    rw [KeyedTable.get_delete, if_neg (h rfl)]

/-- A sweep does not collect the key of a dialog that is not there, or that expires
later. -/
theorem not_mem_expiredKeys {now : ℕ} {space : DrainedSpace}
    (hlive : ∀ dlg, b.kamDialogs.get callId = some dlg → now < dlg.expiresAt)
    (hspace : space = .kamDialogs) : callId ∉ b.expiredKeys now space := by
  subst hspace
  intro hmem
  obtain ⟨dlg, hrow, hkey, hexp⟩ := expired_of_mem_batchOf hmem
  rw [KeyedTable.mem_rows_iff, hkey] at hrow
  exact absurd hexp (not_le.2 (hlive dlg hrow))

theorem leavesDialog_drainSpaces {now : ℕ} (hnow : now ≤ t)
    (hlive : ∀ dlg, b.kamDialogs.get callId = some dlg → t < dlg.expiresAt) (isRunning : Bool)
    (purged : ℕ) (spaces : List DrainedSpace) :
    (Worker.backend (.cleaner (drainSpaces isRunning now b purged spaces).1)).LeavesDialog callId t ∧
      (drainSpaces isRunning now b purged spaces).2.kamDialogs.get callId =
        b.kamDialogs.get callId := by
  rcases drainSpaces_collects isRunning now b purged spaces with h |
    ⟨space, later, key, keys, size, purged', hkeys, h⟩
  · rw [h]
    exact ⟨trivial, rfl⟩
  · have hnot : space = .kamDialogs → callId ∉ key :: keys := by
      rw [← hkeys]
      exact not_mem_expiredKeys fun dlg hdlg => hnow.trans_lt (hlive dlg hdlg)
    rw [h]
    refine ⟨⟨hnow, fun hspace => ?_⟩, get_deleteFrom_of_ne fun hspace => ?_⟩
    · exact List.not_mem_of_not_mem_cons (hnot hspace)
    · exact List.ne_of_not_mem_cons (hnot hspace)

theorem leavesDialog_cleaner {w : Cleaner} (hw : (Worker.backend (.cleaner w)).LeavesDialog callId t)
    (hnow : env.now.epoch ≤ t)
    (hlive : ∀ dlg, b.kamDialogs.get callId = some dlg → t < dlg.expiresAt) :
    (Worker.backend (.cleaner (w.resume env.now env.isRunning b).1)).LeavesDialog callId t ∧
      (w.resume env.now env.isRunning b).2.kamDialogs.get callId = b.kamDialogs.get callId := by
  cases w with
  | awake =>
    rw [Cleaner.resume]
    split_ifs
    · exact leavesDialog_drainSpaces hnow hlive env.isRunning 0 sweepOrder
    · exact ⟨trivial, rfl⟩
  | deleting now space later keys size purged =>
    obtain ⟨hle, hnot⟩ := hw
    cases keys with
    | nil => exact ⟨hle, rfl⟩
    | cons key keys =>
      refine ⟨⟨hle, fun hspace => ?_⟩, get_deleteFrom_of_ne fun hspace => ?_⟩
      · exact List.not_mem_of_not_mem_cons (hnot hspace)
      · exact List.ne_of_not_mem_cons (hnot hspace)
  | yielding now space later purged =>
    exact leavesDialog_drainSpaces hw hlive env.isRunning purged (space :: later)
  | stopped => exact ⟨trivial, rfl⟩

theorem get_authorizeCall_of_ne {now : Clock} {a : AuthorizeArgs} (h : a.callId ≠ callId) :
    (authorizeCall now a b).2.kamDialogs.get callId = b.kamDialogs.get callId := by
  rcases authorizeCall_cases now a b with ⟨hbox, -⟩ | ⟨sub, expiresAt, -, -, -, -, heq⟩
  · rw [hbox]
  · rw [heq, get_upsertDialog, newDialog_callId, if_neg h.symm]

theorem leavesDialog_storeCdr {f : FinalizeFrame} (h : f.args.callId ≠ callId) :
    (Worker.backend (f.storeCdr b).1).LeavesDialog callId t := by
  unfold FinalizeFrame.storeCdr
  split
  · trivial
  · exact h

theorem leavesDialog_startFinalizeCdr {now : Clock} {a : FinalizeArgs} (h : a.callId ≠ callId) :
    (Worker.backend (startFinalizeCdr now a b).1).LeavesDialog callId t := by
  unfold startFinalizeCdr
  simp only
  split
  · exact leavesDialog_storeCdr h
  · exact h

/-- **One turn.**  As long as the dialog is not there or has not expired, a fiber that is not
about to touch it leaves it as it is, and is not about to touch it afterwards. -/
theorem leavesDialog_resume {w : Worker} (hw : w.LeavesDialog callId t) (hnow : env.now.epoch ≤ t)
    (hlive : ∀ dlg, b.kamDialogs.get callId = some dlg → t < dlg.expiresAt) :
    (w.resume env b).1.LeavesDialog callId t ∧
      (w.resume env b).2.kamDialogs.get callId = b.kamDialogs.get callId := by
  match w with
  | .session (.callUpsert a) =>
    refine ⟨trivial, ?_⟩
    show (callUpsert env.now a b).2.kamDialogs.get callId = _
    rcases callUpsert_cases env.now a b with ⟨hbox, -⟩ | ⟨id, c, -, -, heq⟩
    · rw [hbox]
    · rw [heq]
  | .session (.callDelete id) =>
    refine ⟨trivial, ?_⟩
    show (callDelete id b).2.kamDialogs.get callId = _
    cases id with
    | string id => rw [callDelete_string]
    | _ => rfl
  | .answered reply => exact ⟨trivial, rfl⟩
  | .backend (.request (.authorizeCall a)) => exact ⟨trivial, get_authorizeCall_of_ne hw⟩
  | .backend (.request (.finalizeCdr a)) =>
    refine ⟨leavesDialog_startFinalizeCdr hw, ?_⟩
    show (startFinalizeCdr env.now a b).2.kamDialogs.get callId = _
    rw [startFinalizeCdr_kamDialogs]
  | .backend (.request (.setTariff a)) => exact ⟨trivial, rfl⟩
  | .backend (.request (.addSubscriber a)) =>
    refine ⟨trivial, ?_⟩
    show (addSubscriber env.now a b).2.kamDialogs.get callId = _
    rw [addSubscriber_frame]
  | .backend (.request (.updateBalance subId deltaAmount)) =>
    refine ⟨trivial, ?_⟩
    show (updateBalance env.now subId deltaAmount b).2.kamDialogs.get callId = _
    rw [updateBalance_frame]
  | .backend (.storingCdr f) =>
    refine ⟨leavesDialog_storeCdr hw, ?_⟩
    show (f.storeCdr b).2.kamDialogs.get callId = _
    rw [storeCdr_kamDialogs]
  | .backend (.deletingDialog f) =>
    refine ⟨trivial, ?_⟩
    show (b.kamDialogs.delete f.args.callId).get callId = _
    rw [KeyedTable.get_delete, if_neg (Ne.symm hw)]
  | .backend (.deletingCall f) => exact ⟨trivial, rfl⟩
  | .backend (.cleaner w) => exact leavesDialog_cleaner hw hnow hlive
  | .backend (.done outcome) => exact ⟨trivial, rfl⟩

end Turn

/-! ## Subscribers stay -/

/-- No turn removes a subscriber. -/
theorem subscriber_resume (env : Env) (w : Worker) (b : Box) {k : LuaString}
    (h : (b.subscribers.get k).isSome) : ((w.resume env b).2.subscribers.get k).isSome := by
  match w with
  | .session (.callUpsert a) =>
    show ((callUpsert env.now a b).2.subscribers.get k).isSome
    rcases callUpsert_cases env.now a b with ⟨hbox, -⟩ | ⟨id, c, -, -, heq⟩
    · rwa [hbox]
    · rwa [heq]
  | .session (.callDelete id) =>
    show ((callDelete id b).2.subscribers.get k).isSome
    cases id with
    | string id => rwa [callDelete_string]
    | _ => exact h
  | .answered reply => exact h
  | .backend (.request (.authorizeCall a)) =>
    show ((authorizeCall env.now a b).2.subscribers.get k).isSome
    rwa [authorizeCall_frame]
  | .backend (.request (.finalizeCdr a)) =>
    show ((startFinalizeCdr env.now a b).2.subscribers.get k).isSome
    rw [startFinalizeCdr_subscribers]
    exact KeyedTable.isSome_get_update b.subscribers _ _ h
  | .backend (.request (.setTariff a)) => exact h
  | .backend (.request (.addSubscriber a)) =>
    show ((addSubscriber env.now a b).2.subscribers.get k).isSome
    unfold addSubscriber
    split
    · exact h
    · exact KeyedTable.isSome_get_put b.subscribers _ h
  | .backend (.request (.updateBalance subId deltaAmount)) =>
    show ((updateBalance env.now subId deltaAmount b).2.subscribers.get k).isSome
    unfold updateBalance
    split
    · exact h
    · exact KeyedTable.isSome_get_update b.subscribers _ _ h
  | .backend (.storingCdr f) =>
    show ((f.storeCdr b).2.subscribers.get k).isSome
    rwa [storeCdr_subscribers]
  | .backend (.deletingDialog f) => exact h
  | .backend (.deletingCall f) => exact h
  | .backend (.cleaner w) =>
    show ((w.resume env.now env.isRunning b).2.subscribers.get k).isSome
    rcases w.resume_cases env.now env.isRunning b with hbox | ⟨key, space, hbox⟩
    · rwa [hbox]
    · rw [hbox]
      cases space <;> exact h
  | .backend (.done outcome) => exact h

/-! ## Runs -/

section Runs

variable {ι : Type} [DecidableEq ι]

/-- **A run of fibers that leave the dialog alone**, at times that are not after `t`, leaves
it as it is. -/
theorem dialog_run {c : Workers ι} {callId : LuaString} {t : ℕ} {S : Set ι}
    (hS : ∀ k ∈ S, (c.fiber k).LeavesDialog callId t)
    (hlive : ∀ dlg, c.shared.kamDialogs.get callId = some dlg → t < dlg.expiresAt)
    {l : List (ι × Env)} (hl : ∀ x ∈ l, x.1 ∈ S ∧ x.2.now.epoch ≤ t) :
    (∀ k ∈ S, ((run Workers.turn c l).fiber k).LeavesDialog callId t) ∧
      (run Workers.turn c l).shared.kamDialogs.get callId = c.shared.kamDialogs.get callId := by
  induction l generalizing c with
  | nil => exact ⟨hS, rfl⟩
  | cons x l ih =>
    obtain ⟨i, env⟩ := x
    obtain ⟨hi, hnow⟩ := hl (i, env) List.mem_cons_self
    obtain ⟨hfib, hget⟩ := leavesDialog_resume (hS i hi) hnow hlive
    have hget' : (c.turn (i, env)).shared.kamDialogs.get callId = c.shared.kamDialogs.get callId :=
      hget
    have hS' : ∀ k ∈ S, ((c.turn (i, env)).fiber k).LeavesDialog callId t := by
      intro k hk
      by_cases hki : k = i
      · subst hki
        rw [Config.turn_fiber_self]
        exact hfib
      · rw [Config.turn_fiber_of_ne _ _ _ hki]
        exact hS k hk
    rw [run_cons]
    refine (ih hS' (hget' ▸ hlive) fun y hy => hl y (List.mem_cons_of_mem _ hy)).imp_right ?_
    intro h
    rw [h, hget']

theorem subscriber_run (c : Workers ι) (l : List (ι × Env)) {k : LuaString}
    (h : (c.shared.subscribers.get k).isSome) :
    ((run Workers.turn c l).shared.subscribers.get k).isSome := by
  induction l generalizing c with
  | nil => exact h
  | cons x l ih => exact ih _ (subscriber_resume x.2 (c.fiber x.1) c.shared h)

/-- The grace period: the dialog of a grant of `m` seconds. -/
theorem dialogExpiry_fin {now : Clock} {m : ℚ} {expiresAt : ℕ}
    (h : dialogExpiry now (.fin m) = some expiresAt) :
    (expiresAt : ℤ) = ⌊now.time + m + 300⌋ := by
  have hexp : ((⌊m + now.time + 300⌋ : ℤ) : ℚ) = expiresAt := eq_natCast_of_unsigned? h
  rw [add_comm now.time m]
  exact_mod_cast hexp.symm

/-- What an allowed authorisation of a new call leaves. -/
theorem registered_of_allowed {now : Clock} {a : AuthorizeArgs} {b : Box} {g : Grant}
    (hfresh : b.kamDialogs.get a.callId = none)
    (h : (authorizeCall now a b).1 = .ok (.allowed g)) :
    ∃ expiresAt, dialogExpiry now g.maxDurationSec = some expiresAt ∧
      (authorizeCall now a b).2.kamDialogs.get a.callId =
        some (newDialog now a (matchTariff b a.callee) expiresAt) ∧
      (b.subscribers.get a.caller).isSome := by
  rcases authorizeCall_cases now a b with ⟨-, hno⟩ | ⟨sub, expiresAt, hsub, -, -, hexp, heq⟩
  · exact absurd h (hno g)
  · rw [heq] at h ⊢
    cases h
    refine ⟨expiresAt, hexp, ?_, by rw [hsub]; rfl⟩
    rw [get_upsertDialog, newDialog_callId, if_pos rfl, hfresh]
    rfl

/-- A teardown that starts when the dialog is there charges on its terms. -/
theorem chargedOn_turn {c : Workers ι} {j : ι} {e : Env} {f : FinalizeArgs} {dlg : Dialog}
    (hj : c.fiber j = .backend (.request (.finalizeCdr f)))
    (hdlg : c.shared.kamDialogs.get f.callId = some dlg) :
    ChargedOn dlg.terms (f.durationSec.getD 0) c.shared (c.turn (j, e)).shared := by
  have hshared : (c.turn (j, e)).shared = (startFinalizeCdr e.now f c.shared).2 := by
    rw [Config.turn_shared, hj]
    rfl
  have hsubs : (c.turn (j, e)).shared.subscribers =
      (finalizeCdr e.now f c.shared).2.subscribers := by
    rw [hshared, startFinalizeCdr_subscribers, finalizeCdr_subscribers]
  intro k sub hsub
  rw [hsubs]
  exact chargedOn_finalizeCdr hdlg e.now k sub hsub

/-- **A call is charged on its own terms.**  A call that is new is allowed for `m` seconds at
`e.now`.  Whatever the other fibers do to other calls before and after, and however often
the cleaner sweeps, a teardown that starts before the dialog has expired finds it, finds
the subscriber, and charges the caller at the rate and fee of the authorisation. -/
theorem charged_before_expiry {c : Workers ι} {i j : ι} {a : AuthorizeArgs} {f : FinalizeArgs}
    {l₁ l₂ : List (ι × Env)} {e e' : Env} {g : Grant} {m : ℚ}
    (hi : c.fiber i = .backend (.request (.authorizeCall a)))
    (hj : c.fiber j = .backend (.request (.finalizeCdr f))) (hcall : f.callId = a.callId)
    (hfresh : c.shared.kamDialogs.get a.callId = none)
    (hothers : ∀ k, k ≠ i → k ≠ j → (c.fiber k).LeavesDialog a.callId e'.now.epoch)
    (hl₁ : ∀ x ∈ l₁, x.1 ≠ i ∧ x.1 ≠ j) (hl₂ : ∀ x ∈ l₂, x.1 ≠ j)
    (hclock : ((l₁ ++ (i, e) :: l₂ ++ [(j, e')]).map fun x => x.2.now.time).Pairwise (· ≤ ·))
    (hallowed : (authorizeCall e.now a (run Workers.turn c l₁).shared).1 = .ok (.allowed g))
    (hm : g.maxDurationSec = .fin m) (hbefore : (e'.now.epoch : ℤ) < ⌊e.now.time + m + 300⌋) :
    let terms := requestTerms a (run Workers.turn c l₁).shared
    let d := run Workers.turn c (l₁ ++ (i, e) :: l₂)
    (∃ dlg, d.shared.kamDialogs.get f.callId = some dlg ∧ dlg.terms = terms) ∧
      (d.shared.subscribers.get a.caller).isSome ∧
      ChargedOn terms (f.durationSec.getD 0) d.shared (d.turn (j, e')).shared := by
  intro terms d
  have hpast : ∀ x ∈ l₁ ++ (i, e) :: l₂, x.2.now.epoch ≤ e'.now.epoch := by
    intro x hx
    rw [List.map_append] at hclock
    exact Nat.floor_mono ((List.pairwise_append.1 hclock).2.2 _ (List.mem_map_of_mem hx) _
      (by simp))
  have hij : i ≠ j := by
    rintro rfl
    rw [hi] at hj
    cases hj
  -- up to the authorisation nobody registers the call
  obtain ⟨hothers₁, hnone⟩ := dialog_run (c := c) (S := {k | k ≠ i ∧ k ≠ j})
    (fun k hk => hothers k hk.1 hk.2) (fun dlg hdlg => by rw [hfresh] at hdlg; cases hdlg)
    (fun x hx => ⟨hl₁ x hx, hpast x (List.mem_append_left _ hx)⟩)
  rw [hfresh] at hnone
  have hi₁ : (run Workers.turn c l₁).fiber i = .backend (.request (.authorizeCall a)) := by
    rw [← hi]
    exact Config.run_fiber_of_ne _ c fun x hx => (hl₁ x hx).1
  have hj₁ : (run Workers.turn c l₁).fiber j = .backend (.request (.finalizeCdr f)) := by
    rw [← hj]
    exact Config.run_fiber_of_ne _ c fun x hx => (hl₁ x hx).2
  set c₁ := run Workers.turn c l₁ with hc₁
  -- the authorisation registers it, with an expiry after the teardown
  have hturn : (c₁.turn (i, e)).shared = (authorizeCall e.now a c₁.shared).2 := by
    rw [Config.turn_shared, hi₁]
    rfl
  obtain ⟨expiresAt, hexp, hdlg, hsub⟩ := registered_of_allowed hnone hallowed
  rw [← hturn] at hdlg
  have hlater : e'.now.epoch < expiresAt := by
    rw [hm] at hexp
    have := dialogExpiry_fin hexp
    omega
  -- and until then nobody removes it
  have hothers₂ : ∀ k ∈ {k | k ≠ j},
      ((c₁.turn (i, e)).fiber k).LeavesDialog a.callId e'.now.epoch := by
    intro k hk
    by_cases hki : k = i
    · rw [hki, Config.turn_fiber_self, hi₁]
      trivial
    · rw [Config.turn_fiber_of_ne _ _ _ hki]
      exact hothers₁ k ⟨hki, hk⟩
  obtain ⟨-, hkept⟩ := dialog_run hothers₂
    (fun dlg h => by rw [hdlg] at h; cases h; exact hlater)
    (fun x hx => ⟨hl₂ x hx, hpast x (List.mem_append_right _ (List.mem_cons_of_mem _ hx))⟩)
  have hd : d = run Workers.turn (c₁.turn (i, e)) l₂ := by
    rw [hc₁, ← run_cons, ← run_append]
  have hfound : d.shared.kamDialogs.get f.callId =
      some (newDialog e.now a (matchTariff c₁.shared a.callee) expiresAt) := by
    rw [hd, hcall, hkept, hdlg]
  have hjd : d.fiber j = .backend (.request (.finalizeCdr f)) := by
    rw [hd, Config.run_fiber_of_ne _ _ hl₂, Config.turn_fiber_of_ne _ _ _ hij.symm, hj₁]
  refine ⟨⟨_, hfound, rfl⟩, ?_, chargedOn_turn hjd hfound⟩
  rw [hd]
  exact subscriber_run _ l₂ (subscriber_resume e _ _ hsub)

end Runs

/-! ## A call of a minute -/

/-- A call of `alice`, its teardown a minute later, and the cleaner. -/
def callAndCleaner : Workers (Fin 3) :=
  ⟨shop 10 1 1 0, fun
    | 0 => .backend (.request (.authorizeCall (aliceCall "c1")))
    | 1 => .backend (.request (.finalizeCdr (teardown "c1" 60)))
    | 2 => .backend (.cleaner .awake)⟩

/-- The cleaner sweeps before the call and during it; the call is granted ten minutes and
charged on its own terms after one. -/
theorem charged_before_expiry_callAndCleaner :
    let terms := requestTerms (aliceCall "c1")
      (run Workers.turn callAndCleaner [(2, ⟨noon, true⟩)]).shared
    let d := run Workers.turn callAndCleaner
      ([(2, ⟨noon, true⟩)] ++ (0, ⟨noon, true⟩) :: [(2, ⟨noonPlusMinute, true⟩)])
    (∃ dlg, d.shared.kamDialogs.get (ascii "c1") = some dlg ∧ dlg.terms = terms) ∧
      (d.shared.subscribers.get (ascii "alice")).isSome ∧
      ChargedOn terms 60 d.shared (d.turn (1, ⟨noonPlusMinute, true⟩)).shared := by
  refine charged_before_expiry (f := teardown "c1" 60)
    (g := ⟨.fin 600, 1, ascii "7", ascii "USD"⟩) (m := 600) rfl rfl rfl (by decide +kernel)
    (fun k hi hj => ?_) (by decide) (by decide) ?_ (by decide +kernel) rfl (by decide +kernel)
  · match k with
    | 0 => exact absurd rfl hi
    | 1 => exact absurd rfl hj
    | 2 => trivial
  · norm_num [noon, noonPlusMinute, Clock.ofSeconds]

end VoipBackend
