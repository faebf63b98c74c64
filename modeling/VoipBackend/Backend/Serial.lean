import VoipBackend.Backend.Fibers

/-!
# Balance changes are serial

`finalize_cdr` reads the balance, computes the new one and writes it back as an
absolute value; `update_balance` adds in place.  Read and write fall into one turn,
so no update is lost.  This file makes that precise for fibers that finalise
pairwise distinct calls or change balances: in any interleaving the subscribers end
up as if the requests had been served one after the other, in the order in which they
write the balance (`writeOrder`).  What the later stretches of a teardown do, to its
CDR and its dialog, matters to no other request, because the calls are distinct.

As long as no partial result falls below zero, nothing is clamped, and the balance at
the end is the one at the start with all amounts added up, whatever the order
(`balances_serial`).
-/

namespace VoipBackend

open Library

/-! ## The requests considered -/

/-- A teardown or a change of a balance. -/
def Op.ChangesBalance : Op → Prop
  | .updateBalance _ _ => True
  | .finalizeCdr _ => True
  | _ => False

/-- What a request adds to the balance of a subscriber, on the terms the dialogs of `b`
give it. -/
def credit (b : Box) (subId : LuaString) : Op → ℚ
  | .updateBalance s deltaAmount => if s = subId then deltaAmount else 0
  | .finalizeCdr a => if chargedSubscriber a.callId b = subId then -teardownPrice a b else 0
  | _ => 0

theorem credit_updateBalance (b : Box) (subId s : LuaString) (deltaAmount : ℚ) :
    credit b subId (.updateBalance s deltaAmount) = if s = subId then deltaAmount else 0 := rfl

theorem credit_finalizeCdr (b : Box) (subId : LuaString) (a : FinalizeArgs) :
    credit b subId (.finalizeCdr a) =
      if chargedSubscriber a.callId b = subId then -teardownPrice a b else 0 := rfl

/-- The call a fiber is tearing down or about to tear down. -/
def Fiber.teardownOf : Fiber → Option LuaString
  | .request (.finalizeCdr a) => some a.callId
  | .storingCdr f => some f.args.callId
  | .deletingDialog f => some f.args.callId
  | .deletingCall f => some f.args.callId
  | _ => none

/-- A teardown at some point, or a change of a balance that has not started. -/
def Fiber.ChangesBalance (fib : Fiber) : Prop :=
  fib.IsTeardown ∨ ∃ subId deltaAmount, fib = .request (.updateBalance subId deltaAmount)

variable {ι : Type}

/-- Fibers that change balances, with a call for each teardown. -/
structure Separate (c : Fibers ι) : Prop where
  kind : ∀ i, (c.fiber i).ChangesBalance
  distinct : ∀ i j callId, i ≠ j → (c.fiber i).teardownOf = some callId →
    (c.fiber j).teardownOf ≠ some callId

/-- The dialogs of the calls that are still to be torn down are those of `d`. -/
def DialogsAs (d : KeyedTable Dialog.callId) (c : Fibers ι) : Prop :=
  ∀ i a, c.fiber i = .request (.finalizeCdr a) →
    c.shared.kamDialogs.get a.callId = d.get a.callId

/-- Requests that have not started, over the spaces `b`. -/
def requests (b : Box) (ops : ι → Op) : Fibers ι := ⟨b, fun i => .request (ops i)⟩

/-- Requests that change balances, with a call for each teardown, are separate fibers. -/
theorem separate_requests (b : Box) {ops : ι → Op} (hops : ∀ i, (ops i).ChangesBalance)
    (hcalls : ∀ i j a a', i ≠ j → ops i = .finalizeCdr a → ops j = .finalizeCdr a' →
      a.callId ≠ a'.callId) : Separate (requests b ops) := by
  refine ⟨fun i => ?_, fun i j callId hij hi hj => ?_⟩
  · show (Fiber.request (ops i)).ChangesBalance
    have hop := hops i
    cases h : ops i with
    | finalizeCdr a => exact Or.inl trivial
    | updateBalance subId deltaAmount => exact Or.inr ⟨subId, deltaAmount, rfl⟩
    | _ =>
      rw [h] at hop
      exact hop.elim
  · have hof : ∀ k, (Fiber.request (ops k)).teardownOf = some callId →
        ∃ a, ops k = .finalizeCdr a ∧ a.callId = callId := by
      intro k hk
      match hop : ops k with
      | .finalizeCdr a =>
        rw [hop] at hk
        exact ⟨a, rfl, Option.some.inj hk⟩
      | .updateBalance _ _ | .addSubscriber _ | .setTariff _ | .authorizeCall _ =>
        rw [hop] at hk
        cases hk
    obtain ⟨a, ha, hid⟩ := hof i hi
    obtain ⟨a', ha', hid'⟩ := hof j hj
    exact hcalls i j a a' hij ha ha' (hid.trans hid'.symm)

/-! ## What a turn does -/

theorem teardownOf_storeCdr (f : FinalizeFrame) (b : Box) {callId : LuaString}
    (h : (f.storeCdr b).1.teardownOf = some callId) : f.args.callId = callId := by
  unfold FinalizeFrame.storeCdr at h
  split at h
  · cases h
  · exact Option.some.inj h

/-- A turn does not change the call a fiber is tearing down. -/
theorem teardownOf_resume {fib : Fiber} (hkind : fib.ChangesBalance) {env : Env} {b : Box}
    {callId : LuaString} (h : (resume env fib b).1.teardownOf = some callId) :
    fib.teardownOf = some callId := by
  rcases hkind with hkind | ⟨subId, deltaAmount, rfl⟩
  · match fib with
    | .request (.finalizeCdr a) =>
      have hstart : (startFinalizeCdr env.now a b).1.teardownOf = some callId := h
      unfold startFinalizeCdr at hstart
      simp only at hstart
      split at hstart
      · exact congrArg some (teardownOf_storeCdr _ b hstart)
      · exact hstart
    | .storingCdr f => exact congrArg some (teardownOf_storeCdr f b h)
    | .deletingDialog f => exact h
    | .deletingCall f => cases h
    | .done outcome => cases h
  · cases h

theorem changesBalance_resume {fib : Fiber} (h : fib.ChangesBalance) (env : Env) (b : Box) :
    (resume env fib b).1.ChangesBalance := by
  rcases h with h | ⟨subId, deltaAmount, rfl⟩
  · exact Or.inl (isTeardown_resume h env b)
  · exact Or.inl trivial

/-- A turn touches no dialog but the one of the call it tears down. -/
theorem get_dialog_resume {fib : Fiber} (h : fib.ChangesBalance) (env : Env) (b : Box)
    {callId : LuaString} (hne : fib.teardownOf ≠ some callId) :
    (resume env fib b).2.kamDialogs.get callId = b.kamDialogs.get callId := by
  rcases h with h | ⟨subId, deltaAmount, rfl⟩
  · match fib with
    | .request (.finalizeCdr a) =>
      show (startFinalizeCdr env.now a b).2.kamDialogs.get callId = _
      rw [startFinalizeCdr_kamDialogs]
    | .storingCdr f =>
      show (f.storeCdr b).2.kamDialogs.get callId = _
      rw [storeCdr_kamDialogs]
    | .deletingDialog f =>
      have hid : callId ≠ f.args.callId := fun h => hne (congrArg some h.symm)
      show (b.kamDialogs.delete f.args.callId).get callId = _
      rw [KeyedTable.get_delete, if_neg hid]
    | .deletingCall f => rfl
    | .done outcome => rfl
  · show (updateBalance env.now subId deltaAmount b).2.kamDialogs.get callId = _
    rw [updateBalance_frame]

variable [DecidableEq ι]

theorem separate_turn {c : Fibers ι} (h : Separate c) (x : ι × Env) : Separate (c.turn x) := by
  obtain ⟨k, env⟩ := x
  have hcall : ∀ i callId, ((c.turn (k, env)).fiber i).teardownOf = some callId →
      (c.fiber i).teardownOf = some callId := by
    intro i callId hi
    by_cases hik : i = k
    · subst hik
      rw [Config.turn_fiber_self] at hi
      exact teardownOf_resume (h.kind i) hi
    · rwa [Config.turn_fiber_of_ne resume c env hik] at hi
  refine ⟨fun i => ?_, ?_⟩
  · by_cases hik : i = k
    · rw [hik, Config.turn_fiber_self]
      exact changesBalance_resume (h.kind k) env c.shared
    · rw [Config.turn_fiber_of_ne resume c env hik]
      exact h.kind i
  · intro i j callId hij hi hj
    exact h.distinct i j callId hij (hcall i callId hi) (hcall j callId hj)

/-- A turn leaves the dialogs of the calls that are still to be torn down. -/
theorem dialogsAs_turn {d : KeyedTable Dialog.callId} {c : Fibers ι} (h : Separate c)
    (hd : DialogsAs d c) (x : ι × Env) : DialogsAs d (c.turn x) := by
  obtain ⟨k, env⟩ := x
  intro i a hi
  by_cases hik : i = k
  · subst hik
    rw [Config.turn_fiber_self] at hi
    exact absurd hi (resume_ne_request env _ c.shared _)
  · rw [Config.turn_fiber_of_ne resume c env hik] at hi
    have hne : (c.fiber k).teardownOf ≠ some a.callId := by
      refine h.distinct i k a.callId hik ?_
      rw [hi]
      rfl
    rw [Config.turn_shared, get_dialog_resume (h.kind k) env c.shared hne]
    exact hd i a hi

/-! ## The serial run -/

/-- A turn in which a request starts, and writes the balance. -/
def starts (c : Fibers ι) (x : ι × Env) : List (ι × Clock × Op) :=
  match c.fiber x.1 with
  | .request op => [(x.1, x.2.now, op)]
  | _ => []

/-- The requests of a run, in the order of their balance writes. -/
def writeOrder (c : Fibers ι) (l : List (ι × Env)) : List (ι × Clock × Op) :=
  emitted Fibers.turn starts c l

/-- The local variables of a teardown depend on its dialog and the subscribers only. -/
theorem finalizeLocals_congr {b b' : Box} {a : FinalizeArgs} (now : Clock)
    (hdlg : b.kamDialogs.get a.callId = b'.kamDialogs.get a.callId)
    (hsubs : b.subscribers = b'.subscribers) :
    finalizeLocals now a b = finalizeLocals now a b' := by
  simp only [finalizeLocals, hdlg, hsubs]

/-- The fibers and the serial run have the same subscribers, and the same dialogs for the
calls that are still to be torn down. -/
structure InStep (c : Fibers ι) (b : Box) : Prop where
  separate : Separate c
  subscribers : c.shared.subscribers = b.subscribers
  dialogs : DialogsAs b.kamDialogs c

/-- A turn in which a teardown starts is answered by the whole teardown. -/
theorem inStep_finalizeCdr {c : Fibers ι} {b : Box} (h : InStep c b) {i : ι} {a : FinalizeArgs}
    (hi : c.fiber i = .request (.finalizeCdr a)) (env : Env) :
    InStep (c.turn (i, env)) (perform b (env.now, .finalizeCdr a)) := by
  have hlocals := finalizeLocals_congr env.now (h.dialogs i a hi) h.subscribers
  refine ⟨separate_turn h.separate (i, env), ?_, ?_⟩
  · rw [Config.turn_shared, hi]
    show (startFinalizeCdr env.now a c.shared).2.subscribers = (finalizeCdr env.now a b).2.subscribers
    rw [startFinalizeCdr_subscribers, finalizeCdr_subscribers, hlocals]
    show c.shared.subscribers.update _ _ = b.subscribers.update _ _
    rw [h.subscribers]
  · intro j a' hj
    have hdlg := dialogsAs_turn h.separate h.dialogs (i, env) j a' hj
    have hij : j ≠ i := by
      rintro rfl
      rw [Config.turn_fiber_self] at hj
      exact resume_ne_request env _ c.shared _ hj
    rw [Config.turn_fiber_of_ne resume c env hij] at hj
    have hne : a'.callId ≠ a.callId := by
      intro hid
      refine h.separate.distinct j i a'.callId hij (by rw [hj]; rfl) ?_
      rw [hi, hid]
      rfl
    rw [hdlg]
    show _ = (finalizeCdr env.now a b).2.kamDialogs.get a'.callId
    rw [finalizeCdr_kamDialogs]
    split_ifs
    · rw [KeyedTable.get_delete, if_neg hne]
    · rfl

/-- A turn in which a balance is changed is answered by the same change. -/
theorem inStep_updateBalance {c : Fibers ι} {b : Box} (h : InStep c b) {i : ι}
    {subId : LuaString} {deltaAmount : ℚ}
    (hi : c.fiber i = .request (.updateBalance subId deltaAmount)) (env : Env) :
    InStep (c.turn (i, env)) (perform b (env.now, .updateBalance subId deltaAmount)) := by
  have hdialogs : (perform b (env.now, .updateBalance subId deltaAmount)).kamDialogs =
      b.kamDialogs := by
    show (updateBalance env.now subId deltaAmount b).2.kamDialogs = _
    rw [updateBalance_frame]
  refine ⟨separate_turn h.separate (i, env), ?_, ?_⟩
  · rw [Config.turn_shared, hi]
    show (updateBalance env.now subId deltaAmount c.shared).2.subscribers =
      (updateBalance env.now subId deltaAmount b).2.subscribers
    unfold updateBalance
    rw [h.subscribers]
    cases b.subscribers.get subId <;> simp [h.subscribers]
  · rw [hdialogs]
    exact dialogsAs_turn h.separate h.dialogs (i, env)

/-- A later turn of a teardown is answered by nothing. -/
theorem inStep_started {c : Fibers ι} {b : Box} (h : InStep c b) {i : ι}
    (hi : ∀ op, c.fiber i ≠ .request op) (env : Env) : InStep (c.turn (i, env)) b := by
  refine ⟨separate_turn h.separate (i, env), ?_, dialogsAs_turn h.separate h.dialogs (i, env)⟩
  rw [Config.turn_shared, ← h.subscribers]
  rcases h.separate.kind i with hkind | ⟨subId, deltaAmount, hop⟩
  · refine resume_subscribers hkind ?_ env c.shared
    rw [Option.eq_none_iff_forall_not_mem]
    intro a ha
    exact hi _ (eq_request_of_pending ha)
  · exact absurd hop (hi _)

/-- **One turn.**  What it emits keeps the fibers and the serial run in step. -/
theorem inStep_turn {c : Fibers ι} {b : Box} (h : InStep c b) (x : ι × Env) :
    InStep (c.turn x) (run perform b ((starts c x).map Prod.snd)) := by
  obtain ⟨i, env⟩ := x
  unfold starts
  split
  · rename_i op hi
    rcases h.separate.kind i with hkind | ⟨subId, deltaAmount, hop⟩
    · match op with
      | .finalizeCdr a => exact inStep_finalizeCdr h hi env
      | .addSubscriber _ | .updateBalance _ _ | .setTariff _ | .authorizeCall _ =>
        rw [show c.fiber i = _ from hi] at hkind
        exact hkind.elim
    · cases hi.symm.trans hop
      exact inStep_updateBalance h hi env
  · rename_i hi
    exact inStep_started h hi env

/-- The subscribers of a run are those of the serial run. -/
theorem subscribers_run {c : Fibers ι} (h : Separate c) (l : List (ι × Env)) :
    (run Fibers.turn c l).shared.subscribers =
      (run perform c.shared ((writeOrder c l).map Prod.snd)).subscribers := by
  have hrun := run_simulation (P := fun _ _ => True) (R := InStep)
    (fun c b x hstep _ => inStep_turn hstep x) (⟨h, rfl, fun _ _ _ => rfl⟩ : InStep c c.shared)
    (AllSteps.trivial (fun _ _ => True.intro) c l)
  rw [emitted_map] at hrun
  exact hrun.subscribers

/-! ## Every request is served once -/

/-- Only a fiber that has not started can be served. -/
theorem mem_writeOrder {c : Fibers ι} {l : List (ι × Env)} {x : ι × Clock × Op}
    (h : x ∈ writeOrder c l) : c.fiber x.1 = .request x.2.2 := by
  induction l generalizing c with
  | nil => cases h
  | cons y l ih =>
    rcases List.mem_append.1 h with hhead | htail
    · unfold starts at hhead
      split at hhead
      · rename_i op hop
        rw [List.mem_singleton.1 hhead]
        exact hop
      · cases hhead
    · have hturn := ih htail
      obtain ⟨i, env⟩ := y
      by_cases hi : x.1 = i
      · rw [hi, Config.turn_fiber_self] at hturn
        exact absurd hturn (resume_ne_request env _ c.shared _)
      · rwa [Config.turn_fiber_of_ne resume c env hi] at hturn

/-- After its turn a fiber does not start again. -/
theorem not_mem_writeOrder_turn (c : Fibers ι) (i : ι) (env : Env) (l : List (ι × Env)) :
    i ∉ (writeOrder (c.turn (i, env)) l).map Prod.fst := by
  intro hmem
  obtain ⟨x, hx, rfl⟩ := List.mem_map.1 hmem
  have hrequest := mem_writeOrder hx
  rw [Config.turn_fiber_self] at hrequest
  exact resume_ne_request env _ c.shared _ hrequest

theorem nodup_writeOrder (c : Fibers ι) (l : List (ι × Env)) :
    ((writeOrder c l).map Prod.fst).Nodup := by
  induction l generalizing c with
  | nil => exact List.nodup_nil
  | cons y l ih =>
    obtain ⟨i, env⟩ := y
    show ((starts c (i, env) ++ writeOrder (c.turn (i, env)) l).map Prod.fst).Nodup
    unfold starts
    split
    · exact List.nodup_cons.2 ⟨not_mem_writeOrder_turn c i env l, ih _⟩
    · exact ih _

/-- A request that is no longer waiting has been served. -/
theorem mem_writeOrder_of_started {c : Fibers ι} {l : List (ι × Env)} {i : ι} {op : Op}
    (h : c.fiber i = .request op) (hend : (run Fibers.turn c l).fiber i ≠ .request op) :
    i ∈ (writeOrder c l).map Prod.fst := by
  induction l generalizing c with
  | nil => exact absurd h hend
  | cons y l ih =>
    obtain ⟨j, env⟩ := y
    show i ∈ (starts c (j, env) ++ writeOrder (c.turn (j, env)) l).map Prod.fst
    rw [List.map_append, List.mem_append]
    by_cases hij : i = j
    · subst hij
      refine Or.inl ?_
      simp [starts, h]
    · refine Or.inr (ih ?_ hend)
      rw [Config.turn_fiber_of_ne resume c env hij]
      exact h

/-! ## Adding up -/

/-- What a teardown adds to a balance depends on its dialog only. -/
theorem credit_finalizeCdr_congr {b b' : Box} {a : FinalizeArgs}
    (h : b.kamDialogs.get a.callId = b'.kamDialogs.get a.callId) (subId : LuaString) :
    credit b subId (.finalizeCdr a) = credit b' subId (.finalizeCdr a) := by
  have hcaller : chargedSubscriber a.callId b = chargedSubscriber a.callId b' := by
    unfold chargedSubscriber
    rw [h]
  have hprice : teardownPrice a b = teardownPrice a b' := by
    unfold teardownPrice
    rw [h]
  rw [credit_finalizeCdr, credit_finalizeCdr, hcaller, hprice]

/-- A teardown that starts and is not clamped adds its credit. -/
theorem balance_startFinalizeCdr {b : Box} {subId : LuaString} {sub : Subscriber}
    (hsub : b.subscribers.get subId = some sub) (now : Clock) (a : FinalizeArgs)
    (hpos : 0 ≤ sub.balance + credit b subId (.finalizeCdr a)) :
    ∃ sub', (startFinalizeCdr now a b).2.subscribers.get subId = some sub' ∧
      sub'.balance = sub.balance + credit b subId (.finalizeCdr a) := by
  rw [startFinalizeCdr_subscribers, get_deduct, finalizeLocals_caller]
  rw [credit_finalizeCdr] at hpos ⊢
  by_cases hcaller : chargedSubscriber a.callId b = subId
  · subst hcaller
    rw [if_pos rfl] at hpos ⊢
    rw [if_pos rfl, hsub]
    refine ⟨_, rfl, ?_⟩
    show (finalizeLocals now a b).newBalance = _
    rw [finalizeLocals_newBalance now hsub, max_eq_right (by linarith), sub_eq_add_neg]
  · rw [if_neg (Ne.symm hcaller), if_neg hcaller, add_zero]
    exact ⟨sub, hsub, rfl⟩

/-- A change of a balance adds its credit. -/
theorem balance_updateBalance {b : Box} {subId : LuaString} {sub : Subscriber}
    (hsub : b.subscribers.get subId = some sub) (now : Clock) (s : LuaString) (deltaAmount : ℚ) :
    ∃ sub', (updateBalance now s deltaAmount b).2.subscribers.get subId = some sub' ∧
      sub'.balance = sub.balance + credit b subId (.updateBalance s deltaAmount) := by
  rw [credit_updateBalance]
  unfold updateBalance
  by_cases hs : s = subId
  · subst hs
    rw [if_pos rfl]
    simp only [hsub]
    rw [KeyedTable.get_update (f := topUp now deltaAmount) (fun _ => rfl), if_pos rfl, hsub]
    exact ⟨_, rfl, rfl⟩
  · rw [if_neg hs, add_zero]
    cases hget : b.subscribers.get s with
    | none => exact ⟨sub, hsub, rfl⟩
    | some other =>
      simp only
      rw [KeyedTable.get_update (f := topUp now deltaAmount) (fun _ => rfl), if_neg (Ne.symm hs)]
      exact ⟨sub, hsub, rfl⟩

/-- **One turn.**  It adds the credit of the request that starts in it, if that leaves
the balance at zero or above. -/
theorem balance_turn {b : Box} {c : Fibers ι} (h : Separate c) (hd : DialogsAs b.kamDialogs c)
    {subId : LuaString} {sub : Subscriber} (hsub : c.shared.subscribers.get subId = some sub)
    (x : ι × Env)
    (hpos : 0 ≤ sub.balance + ((starts c x).map fun y => credit b subId y.2.2).sum) :
    ∃ sub', (c.turn x).shared.subscribers.get subId = some sub' ∧
      sub'.balance = sub.balance + ((starts c x).map fun y => credit b subId y.2.2).sum := by
  obtain ⟨i, env⟩ := x
  rw [Config.turn_shared]
  cases hi : c.fiber i with
  | request op =>
    have hstarts : starts c (i, env) = [(i, env.now, op)] := by simp [starts, hi]
    rw [hstarts, List.map_singleton, List.sum_singleton] at hpos ⊢
    have hkind := h.kind i
    rw [hi] at hkind
    rcases hkind with hkind | ⟨s, deltaAmount, hop⟩
    · match op with
      | .finalizeCdr a =>
        rw [credit_finalizeCdr_congr (hd i a hi).symm subId] at hpos ⊢
        exact balance_startFinalizeCdr hsub env.now a hpos
    · cases hop
      exact balance_updateBalance hsub env.now s deltaAmount
  | _ =>
    have hstarts : starts c (i, env) = [] := by simp [starts, hi]
    have hstep := inStep_started (⟨h, rfl, fun _ _ _ => rfl⟩ : InStep c c.shared)
      (i := i) (by simp [hi]) env
    rw [hstarts, List.map_nil, List.sum_nil, add_zero]
    refine ⟨sub, ?_, rfl⟩
    rw [← hi, ← Config.turn_shared, hstep.subscribers]
    exact hsub

/-- A run adds up the credits of the requests it serves, if no partial sum is below
zero. -/
theorem balance_run {b : Box} {c : Fibers ι} (h : Separate c) (hd : DialogsAs b.kamDialogs c)
    {subId : LuaString} {sub : Subscriber} (hsub : c.shared.subscribers.get subId = some sub)
    {l : List (ι × Env)}
    (hpos : ∀ p, p <+: writeOrder c l →
      0 ≤ sub.balance + (p.map fun y => credit b subId y.2.2).sum) :
    ∃ sub', (run Fibers.turn c l).shared.subscribers.get subId = some sub' ∧
      sub'.balance = sub.balance + ((writeOrder c l).map fun y => credit b subId y.2.2).sum := by
  induction l generalizing c sub with
  | nil => exact ⟨sub, hsub, by simp [writeOrder, emitted]⟩
  | cons x l ih =>
    have horder : writeOrder c (x :: l) = starts c x ++ writeOrder (c.turn x) l := rfl
    rw [horder] at hpos ⊢
    obtain ⟨sub₁, hsub₁, hbal₁⟩ := balance_turn h hd hsub x (hpos _ (List.prefix_append _ _))
    have hpos₁ : ∀ p, p <+: writeOrder (c.turn x) l →
        0 ≤ sub₁.balance + (p.map fun y => credit b subId y.2.2).sum := by
      intro p hp
      have hle := hpos (starts c x ++ p) ((List.prefix_append_right_inj _).2 hp)
      rw [List.map_append, List.sum_append] at hle
      rw [hbal₁]
      linarith
    obtain ⟨sub₂, hsub₂, hbal₂⟩ := ih (separate_turn h x) (dialogsAs_turn h hd x) hsub₁ hpos₁
    refine ⟨sub₂, hsub₂, ?_⟩
    rw [hbal₂, hbal₁, List.map_append, List.sum_append, add_assoc]

/-! ## The result -/

/-- Every fiber has returned or raised. -/
def Finished (c : Fibers ι) : Prop := ∀ i, ∃ outcome, c.fiber i = .done outcome

/-- A run of requests that left the balances as a serial run does. -/
structure SerialRun [Fintype ι] (b : Box) (ops : ι → Op) (l : List (ι × Env)) : Prop where
  /-- The subscribers are those of the requests served one after the other, in the order
  of their balance writes. -/
  subscribers : (run Fibers.turn (requests b ops) l).shared.subscribers =
    (run perform b ((writeOrder (requests b ops) l).map Prod.snd)).subscribers
  /-- That order has every request at most once, as it was made. -/
  once : ((writeOrder (requests b ops) l).map Prod.fst).Nodup
  asMade : ∀ x ∈ writeOrder (requests b ops) l, x.2.2 = ops x.1
  /-- It has all of them when all fibers have finished. -/
  all : Finished (run Fibers.turn (requests b ops) l) →
    ∀ i, i ∈ (writeOrder (requests b ops) l).map Prod.fst
  /-- Then, if no partial result falls below zero, the balance is the initial one plus all
  deltas minus all billed amounts. -/
  sum : Finished (run Fibers.turn (requests b ops) l) →
    ∀ subId sub, b.subscribers.get subId = some sub →
      (∀ p, p <+: writeOrder (requests b ops) l →
        0 ≤ sub.balance + (p.map fun x => credit b subId x.2.2).sum) →
      (run Fibers.turn (requests b ops) l).shared.balanceOf subId =
        sub.balance + ∑ i, credit b subId (ops i)

/-- **Balance changes are serial.**  In any interleaving of any number of teardowns of
pairwise distinct calls and changes of balances. -/
theorem balances_serial [Fintype ι] {b : Box} {ops : ι → Op}
    (hops : ∀ i, (ops i).ChangesBalance)
    (hcalls : ∀ i j a a', i ≠ j → ops i = .finalizeCdr a → ops j = .finalizeCdr a' →
      a.callId ≠ a'.callId) (l : List (ι × Env)) : SerialRun b ops l := by
  have hsep := separate_requests b hops hcalls
  have hall : Finished (run Fibers.turn (requests b ops) l) →
      ∀ i, i ∈ (writeOrder (requests b ops) l).map Prod.fst := by
    intro hfin i
    obtain ⟨outcome, hdone⟩ := hfin i
    have hwaiting : (requests b ops).fiber i = .request (ops i) := rfl
    refine mem_writeOrder_of_started hwaiting ?_
    rw [hdone]
    simp
  have hmade : ∀ x ∈ writeOrder (requests b ops) l, x.2.2 = ops x.1 := by
    intro x hx
    have hrequest : Fiber.request (ops x.1) = .request x.2.2 := mem_writeOrder hx
    injection hrequest with hop
    exact hop.symm
  refine ⟨subscribers_run hsep l, nodup_writeOrder _ l, hmade, hall, ?_⟩
  intro hfin subId sub hsub hpos
  obtain ⟨sub', hsub', hbal⟩ := balance_run (b := b) hsep (fun _ _ _ => rfl) hsub hpos
  have hcredits : ((writeOrder (requests b ops) l).map fun x => credit b subId x.2.2) =
      ((writeOrder (requests b ops) l).map Prod.fst).map fun i => credit b subId (ops i) := by
    rw [List.map_map]
    refine List.map_congr_left fun x hx => ?_
    rw [hmade x hx]
    rfl
  have huniv : ((writeOrder (requests b ops) l).map Prod.fst).toFinset = Finset.univ := by
    refine Finset.eq_univ_of_forall fun i => ?_
    exact List.mem_toFinset.2 (hall hfin i)
  rw [Box.balanceOf, hsub', Option.elim_some, hbal, hcredits, ← huniv,
    List.sum_toFinset _ (nodup_writeOrder _ l)]

/-- Two calls of `alice` that end while 5 are paid in. -/
def threeRequests : Fin 3 → Op
  | 0 => .finalizeCdr (teardown "c1" 60)
  | 1 => .finalizeCdr (teardown "c2" 60)
  | 2 => .updateBalance (ascii "alice") 5

/-- The spaces with both calls under way. -/
def twoUnderWay : Box :=
  (authorizeCall noon (aliceCall "c2") (authorizeCall noon (aliceCall "c1") (shop 10 2 1 0)).2).2

/-- The payment and the second teardown come between the stretches of the first. -/
def threeTurns : List (Fin 3 × Env) :=
  [(0, ⟨noon, true⟩), (2, ⟨noon, true⟩), (1, ⟨noon, true⟩), (1, ⟨noon, true⟩), (0, ⟨noon, true⟩),
    (0, ⟨noon, true⟩), (1, ⟨noon, true⟩), (0, ⟨noon, true⟩), (1, ⟨noon, true⟩)]

/-- The payment of 5 and the two charges of 1 are all kept. -/
theorem balances_serial_three : SerialRun twoUnderWay threeRequests threeTurns ∧
    (run Fibers.turn (requests twoUnderWay threeRequests) threeTurns).shared.balanceOf
      (ascii "alice") = 13 := by
  refine ⟨balances_serial ?_ ?_ threeTurns, by decide +kernel⟩
  · intro i
    fin_cases i <;> trivial
  · intro i j a a' hij hi hj
    fin_cases i <;> fin_cases j <;> cases hi <;> cases hj
    · exact absurd rfl hij
    · decide +kernel
    · decide +kernel
    · exact absurd rfl hij

end VoipBackend
