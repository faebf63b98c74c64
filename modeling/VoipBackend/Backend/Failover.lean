import VoipBackend.Lib.Execution
import VoipBackend.Backend.Rating
import VoipBackend.Backend.Sessions
import VoipBackend.Backend.Sweep

/-!
# Which calls does a node take over?

A node that fails over asks `call_restore` for the calls of another.  What it should be
told is a matter of the history alone: for each call, what was last written about it,
and whether that has expired.  `Directory` keeps just that, as functions of the call
id; it knows nothing of tables, indexes and scans, and forgets nothing in a sweep.

`restore_exact` relates the two for every history of registrations, refreshes, removals
and sweeps: the answer has exactly one entry for every call of the node that is live by
the directory, and the `created_at` of a call is the time it was first registered since
it was last absent.
-/

namespace VoipBackend

open Library

/-! ## Histories -/

/-- A request to register or refresh a call: strings for the call and its node, a
positive number of seconds or the default. -/
structure UpsertRequest where
  callId : LuaString
  nodeId : LuaString
  payload : LuaValue
  ttl : Option ℕ+
  /-- The node has a name. -/
  node_ne : nodeId ≠ []

namespace UpsertRequest

/-- The arguments of `call_upsert`. -/
def args (r : UpsertRequest) : CallUpsertArgs where
  callId := .string r.callId
  nodeId := .string r.nodeId
  payload := r.payload
  ttlSec := (r.ttl.map fun n => LuaValue.number (n : ℕ)).getD .nil

/-- The seconds the call is registered for. -/
def seconds (r : UpsertRequest) : ℕ := (r.ttl.map fun n => (n : ℕ)).getD 3600

/-- The tuple can be stored: it has a payload, and its expiry is a number of 64 bits. -/
def Storable (now : ℕ) (r : UpsertRequest) : Prop :=
  r.payload.isNil = false ∧ now + r.seconds < 2 ^ 64

instance (now : ℕ) (r : UpsertRequest) : Decidable (r.Storable now) :=
  inferInstanceAs (Decidable (_ ∧ _))

/-- The tuple that is stored. -/
def call (r : UpsertRequest) (createdAt now : ℕ) : RtpeCall :=
  ⟨r.callId, r.nodeId, ascii "active", createdAt, now, now + r.seconds, r.payload⟩

@[simp] theorem call_callId (r : UpsertRequest) (createdAt now : ℕ) :
    (r.call createdAt now).callId = r.callId := rfl

end UpsertRequest

/-- A step of a history. -/
inductive SessionEvent where
  | upsert (r : UpsertRequest)
  | delete (callId : LuaString)
  | sweep

/-- The spaces after a step. -/
def serve (b : Box) (x : Clock × SessionEvent) : Box :=
  match x.2 with
  | .upsert r => (callUpsert x.1 r.args b).2
  | .delete callId => (callDelete (.string callId) b).2
  | .sweep => sweep x.1 b

/-! ## The directory -/

/-- What was last written about a call. -/
structure Registration where
  nodeId : LuaString
  payload : LuaValue
  expiresAt : ℕ

/-- What a history says of each call. -/
structure Directory where
  /-- The last write, if it was a registration and not a removal. -/
  last : LuaString → Option Registration
  /-- When it was first registered since it was last absent, unless it is absent. -/
  since : LuaString → Option ℕ

/-- Nothing has been registered. -/
def Directory.init : Directory := ⟨fun _ => none, fun _ => none⟩

/-- One step of a history.  A registration that cannot be stored raises and counts for
nothing; a sweep makes the calls absent that have expired. -/
def Directory.step (d : Directory) (x : Clock × SessionEvent) : Directory :=
  match x.2 with
  | .upsert r =>
      if r.Storable x.1.epoch then
        { last := Function.update d.last r.callId
            (some ⟨r.nodeId, r.payload, x.1.epoch + r.seconds⟩)
          since := Function.update d.since r.callId
            (some ((d.since r.callId).getD x.1.epoch)) }
      else d
  | .delete callId =>
      { last := Function.update d.last callId none
        since := Function.update d.since callId none }
  | .sweep =>
      { d with
        since := fun callId =>
          if ∃ reg ∈ d.last callId, reg.expiresAt ≤ x.1.epoch then none else d.since callId }

/-- The entries of the calls that are live: last written as a registration that has not
expired, with the node and the payload of that registration. -/
def Directory.Live (d : Directory) (now : ℕ) (e : RestoredCall) : Prop :=
  ∃ reg, d.last e.callId = some reg ∧ now < reg.expiresAt ∧
    e.nodeId = reg.nodeId ∧ e.payload = reg.payload

/-! ## The table follows the directory -/

/-- What is registered by a tuple. -/
def RtpeCall.registration (c : RtpeCall) : Registration := ⟨c.nodeId, c.payload, c.expiresAt⟩

/-- The tuple of a call, what was last written about it and since when it is there, at a
time no sweep has been later than. -/
inductive Tracks (now : ℕ) : Option RtpeCall → Option Registration → Option ℕ → Prop
  | absent {last : Option Registration} (h : ∀ reg ∈ last, reg.expiresAt ≤ now) :
      Tracks now none last none
  | present (c : RtpeCall) : Tracks now (some c) (some c.registration) (some c.createdAt)

/-- The space follows the directory. -/
def Tracked (now : ℕ) (b : Box) (d : Directory) : Prop :=
  ∀ callId, Tracks now (b.rtpeCalls.get callId) (d.last callId) (d.since callId)

theorem Tracks.mono {now now' : ℕ} (hle : now ≤ now') {c : Option RtpeCall}
    {last : Option Registration} {since : Option ℕ} (h : Tracks now c last since) :
    Tracks now' c last since := by
  cases h with
  | absent h => exact .absent fun reg hreg => (h reg hreg).trans hle
  | present c => exact .present c

/-- The tuple is there since the directory says so. -/
theorem Tracks.createdAt_eq {now : ℕ} {c : Option RtpeCall} {last : Option Registration}
    {since : Option ℕ} (h : Tracks now c last since) : c.map RtpeCall.createdAt = since := by
  cases h <;> rfl

theorem Tracks.last_eq {now : ℕ} {c : RtpeCall} {last : Option Registration} {since : Option ℕ}
    (h : Tracks now (some c) last since) : last = some c.registration := by
  cases h
  rfl

theorem Tracks.expired {now : ℕ} {last : Option Registration} {since : Option ℕ}
    (h : Tracks now none last since) : ∀ reg ∈ last, reg.expiresAt ≤ now := by
  cases h with
  | absent h => exact h

theorem ttl_args (r : UpsertRequest) : r.args.ttl = r.seconds := by
  unfold CallUpsertArgs.ttl UpsertRequest.args UpsertRequest.seconds
  cases r.ttl with
  | none => norm_num
  | some n => simp

theorem row_args (r : UpsertRequest) (createdAt now : ℕ) :
    r.args.row r.callId createdAt now =
      if now + r.seconds < 2 ^ 64 then
        (checkPresent "rtpe_calls" "payload" r.payload).map fun _ => r.call createdAt now
      else .error (.fieldType "rtpe_calls" "expires_at") := by
  have hcast : (now : ℚ) + r.args.ttl = ((now + r.seconds : ℕ) : ℚ) := by
    rw [ttl_args]
    push_cast
    rfl
  unfold CallUpsertArgs.row
  rw [hcast]
  split_ifs with hfits
  · rw [unsigned?_natCast hfits]
    show checkPresent "rtpe_calls" "payload" r.payload >>= _ = _
    cases hp : r.payload <;> simp only [checkPresent, UpsertRequest.call, hp] <;> rfl
  · have hnone : unsigned? ((now + r.seconds : ℕ) : ℚ) = none := by
      rw [← Option.not_isSome_iff_eq_none, unsigned?_isSome_iff]
      rintro ⟨n, hn, heq⟩
      have : now + r.seconds = n := by exact_mod_cast heq
      omega
    rw [hnone]
    rfl

/-- What `call_upsert` does for such a request. -/
theorem callUpsert_args (now : Clock) (r : UpsertRequest) (b : Box) :
    (callUpsert now r.args b).2 =
      if r.Storable now.epoch then
        { b with
          rtpeCalls := b.rtpeCalls.put (r.call
            (((b.rtpeCalls.get r.callId).map RtpeCall.createdAt).getD now.epoch) now.epoch) }
      else b := by
  have hid : r.args.callId = .string r.callId := rfl
  unfold callUpsert
  simp only [hid, row_args]
  by_cases hfits : now.epoch + r.seconds < 2 ^ 64
  · rw [if_pos hfits]
    cases hnil : r.payload.isNil with
    | false =>
      rw [checkPresent_of_not_nil hnil, if_pos ⟨hnil, hfits⟩]
      rfl
    | true =>
      have hno : ¬ r.Storable now.epoch := fun h => by simp [h.1] at hnil
      rw [checkPresent_of_nil hnil, if_neg hno]
      rfl
  · have hno : ¬ r.Storable now.epoch := fun h => hfits h.2
    rw [if_neg hfits, if_neg hno]

theorem tracked_upsert {now : Clock} {b : Box} {d : Directory} (h : Tracked now.epoch b d)
    (r : UpsertRequest) :
    Tracked now.epoch (serve b (now, .upsert r)) (d.step (now, .upsert r)) := by
  intro callId
  show Tracks _ ((callUpsert now r.args b).2.rtpeCalls.get callId) _ _
  rw [callUpsert_args]
  simp only [Directory.step]
  split_ifs with hstore
  · rw [KeyedTable.get_put, UpsertRequest.call_callId]
    show Tracks _ _ (Function.update d.last r.callId _ callId)
      (Function.update d.since r.callId _ callId)
    by_cases hc : callId = r.callId
    · subst hc
      rw [if_pos rfl, Function.update_self, Function.update_self, ← (h r.callId).createdAt_eq]
      exact .present _
    · rw [if_neg hc, Function.update_of_ne hc, Function.update_of_ne hc]
      exact h callId
  · exact h callId

theorem tracked_delete {now : Clock} {b : Box} {d : Directory} (h : Tracked now.epoch b d)
    (callId : LuaString) :
    Tracked now.epoch (serve b (now, .delete callId)) (d.step (now, .delete callId)) := by
  intro k
  show Tracks _ ((callDelete (.string callId) b).2.rtpeCalls.get k) _ _
  rw [callDelete_string, KeyedTable.get_delete]
  simp only [Directory.step]
  by_cases hk : k = callId
  · rw [if_pos hk, hk, Function.update_self, Function.update_self]
    exact .absent fun reg hreg => by cases hreg
  · rw [if_neg hk, Function.update_of_ne hk, Function.update_of_ne hk]
    exact h k

theorem tracked_sweep {now : Clock} {b : Box} {d : Directory} (h : Tracked now.epoch b d) :
    Tracked now.epoch (serve b (now, .sweep)) (d.step (now, .sweep)) := by
  intro callId
  show Tracks _ ((sweep now b).rtpeCalls.get callId) (d.last callId)
    (if ∃ reg ∈ d.last callId, reg.expiresAt ≤ now.epoch then none else d.since callId)
  rw [sweep_eq, KeyedTable.get_filter]
  have hthis := h callId
  generalize b.rtpeCalls.get callId = c, d.last callId = last, d.since callId = since at hthis ⊢
  cases hthis with
  | absent hexp =>
    rw [Option.filter_none, ite_self]
    exact .absent hexp
  | present c =>
    by_cases hlive : now.epoch < c.expiresAt
    · have hkept : ¬ ∃ reg ∈ some c.registration, reg.expiresAt ≤ now.epoch := by
        rintro ⟨reg, hreg, hle⟩
        cases hreg
        exact absurd hle (not_le.2 hlive)
      rw [if_neg hkept, Option.filter_some, if_pos (by simpa using hlive)]
      exact .present c
    · have hgone : ∃ reg ∈ some c.registration, reg.expiresAt ≤ now.epoch :=
        ⟨c.registration, rfl, not_lt.1 hlive⟩
      rw [if_pos hgone, Option.filter_some, if_neg (by simpa using hlive)]
      refine .absent fun reg hreg => ?_
      cases hreg
      exact not_lt.1 hlive

/-- The space follows the directory along every history. -/
theorem tracked_run {l : List (Clock × SessionEvent)} {now : ℕ}
    (h : (l.map (fun x => x.1.epoch) ++ [now]).Pairwise (· ≤ ·)) :
    Tracked now (run serve Box.init l) (run Directory.step Directory.init l) := by
  refine run_clocked (R := Tracked) ?_ ?_ ?_ h
  · intro t t' b d hle hb callId
    exact (hb callId).mono hle
  · rintro b d ⟨now, e⟩ hb
    cases e with
    | upsert r => exact tracked_upsert hb r
    | delete callId => exact tracked_delete hb callId
    | sweep => exact tracked_sweep hb
  · intro t callId
    exact .absent fun reg hreg => by cases hreg

/-- Every registration is of a node with a name. -/
theorem node_ne_run (l : List (Clock × SessionEvent)) :
    ∀ callId reg, (run Directory.step Directory.init l).last callId = some reg → reg.nodeId ≠ [] := by
  refine run_invariant (P := fun _ _ => True)
    (I := fun d : Directory => ∀ callId reg, d.last callId = some reg → reg.nodeId ≠ [])
    ?_ ?_ (AllSteps.trivial (fun _ _ => True.intro) _ l)
  · rintro d ⟨now, e⟩ hd - callId reg hlast
    cases e with
    | upsert r =>
      simp only [Directory.step] at hlast
      split_ifs at hlast with hstore
      · change Function.update d.last r.callId _ callId = some reg at hlast
        by_cases hc : callId = r.callId
        · rw [hc, Function.update_self] at hlast
          cases hlast
          exact r.node_ne
        · rw [Function.update_of_ne hc] at hlast
          exact hd callId reg hlast
      · exact hd callId reg hlast
    | delete k =>
      by_cases hc : callId = k
      · simp [Directory.step, hc] at hlast
      · simp only [Directory.step, Function.update_of_ne hc] at hlast
        exact hd callId reg hlast
    | sweep => exact hd callId reg hlast
  · intro callId reg hlast
    cases hlast

/-! ## The answers -/

/-- The entries are those with a property, and no call has two. -/
def ExactlyOnce (l : List RestoredCall) (P : RestoredCall → Prop) : Prop :=
  (l.map RestoredCall.callId).Nodup ∧ ∀ e, e ∈ l ↔ P e

theorem mem_callRestore {now : Clock} {nodeId : LuaValue} {b : Box} {e : RestoredCall} :
    e ∈ callRestore now nodeId b ↔
      ∃ c ∈ callsOf nodeId b, now.epoch < c.expiresAt ∧ c.restored = e := by
  unfold callRestore
  simp only [List.mem_map, List.mem_filter, decide_eq_true_eq, and_assoc]

theorem mem_callsOf_string {n : LuaString} (hn : n ≠ []) {b : Box} {c : RtpeCall} :
    c ∈ callsOf (.string n) b ↔ c ∈ b.rtpeCalls.rows ∧ c.nodeId = n := by
  cases n with
  | nil => exact absurd rfl hn
  | cons x n => simp [callsOf, KeyedTable.mem_scanAsc]

/-- A scan meets every call once. -/
theorem nodup_callsOf (nodeId : LuaValue) (b : Box) :
    ((callsOf nodeId b).map RtpeCall.callId).Nodup := by
  have hrows : (b.rtpeCalls.rows.map RtpeCall.callId).Nodup :=
    List.pairwise_map.2 (b.rtpeCalls.sorted.imp fun h => h.ne)
  unfold callsOf
  split
  · exact hrows
  · have hscan : ((b.rtpeCalls.scanAsc RtpeCall.updatedAt).map RtpeCall.callId).Nodup :=
      ((List.perm_insertionSort _ _).map _).nodup_iff.2 hrows
    exact hscan.sublist (List.filter_sublist.map _)
  · exact hrows

theorem nodup_callRestore (now : Clock) (nodeId : LuaValue) (b : Box) :
    ((callRestore now nodeId b).map RestoredCall.callId).Nodup := by
  unfold callRestore
  rw [List.map_map]
  exact (nodup_callsOf nodeId b).sublist (List.filter_sublist.map _)

/-- The live tuples are the live calls of the directory. -/
theorem live_iff {now : ℕ} {b : Box} {d : Directory} (h : Tracked now b d) (e : RestoredCall) :
    (∃ c ∈ b.rtpeCalls.rows, now < c.expiresAt ∧ c.restored = e) ↔ d.Live now e := by
  constructor
  · rintro ⟨c, hc, hlive, rfl⟩
    have hthis := h c.callId
    rw [KeyedTable.mem_rows_iff.1 hc] at hthis
    exact ⟨c.registration, hthis.last_eq, hlive, rfl, rfl⟩
  · rintro ⟨reg, hlast, hlive, hnode, hpayload⟩
    have hthis := h e.callId
    rw [hlast] at hthis
    cases hget : b.rtpeCalls.get e.callId with
    | none =>
      rw [hget] at hthis
      exact absurd (hthis.expired reg rfl) (not_le.2 hlive)
    | some c =>
      rw [hget] at hthis
      have hreg : reg = c.registration := Option.some.inj hthis.last_eq
      subst hreg
      refine ⟨c, KeyedTable.mem_of_get hget, hlive, ?_⟩
      rw [RtpeCall.restored, KeyedTable.key_of_get hget]
      cases e
      cases hnode
      cases hpayload
      rfl

/-- **Failover sees what was registered.**  After every history of registrations,
removals and sweeps at times that do not go back, and at every later time: `call_restore`
of a node has exactly one entry for every live call of the node, with its last payload,
and nothing else; `call_restore(nil)` has exactly one entry for every live call, and is
the disjoint union of the answers for the nodes; and `created_at` is the time of the
first registration since the call was last absent. -/
theorem restore_exact {l : List (Clock × SessionEvent)} {now : Clock}
    (h : (l.map (fun x => x.1.epoch) ++ [now.epoch]).Pairwise (· ≤ ·)) :
    let b := run serve Box.init l
    let d := run Directory.step Directory.init l
    (∀ n, n ≠ [] → ExactlyOnce (callRestore now (.string n) b)
        fun e => d.Live now.epoch e ∧ e.nodeId = n) ∧
      ExactlyOnce (callRestore now .nil b) (d.Live now.epoch) ∧
      (∀ e, e ∈ callRestore now .nil b ↔ ∃ n, n ≠ [] ∧ e ∈ callRestore now (.string n) b) ∧
      (∀ n n', n ≠ [] → n' ≠ [] → n ≠ n' →
        (callRestore now (.string n) b).Disjoint (callRestore now (.string n') b)) ∧
      ∀ callId, (callGet (.string callId) b).map RtpeCall.createdAt = d.since callId := by
  intro b d
  have htracked : Tracked now.epoch b d := tracked_run h
  have hnode : ∀ n, n ≠ [] → ∀ e, e ∈ callRestore now (.string n) b ↔
      d.Live now.epoch e ∧ e.nodeId = n := by
    intro n hn e
    rw [mem_callRestore, ← live_iff htracked e]
    constructor
    · rintro ⟨c, hc, hlive, rfl⟩
      obtain ⟨hrow, hcn⟩ := (mem_callsOf_string hn).1 hc
      exact ⟨⟨c, hrow, hlive, rfl⟩, hcn⟩
    · rintro ⟨⟨c, hrow, hlive, rfl⟩, hcn⟩
      exact ⟨c, (mem_callsOf_string hn).2 ⟨hrow, hcn⟩, hlive, rfl⟩
  have hall : ∀ e, e ∈ callRestore now .nil b ↔ d.Live now.epoch e := by
    intro e
    rw [mem_callRestore]
    exact live_iff htracked e
  refine ⟨fun n hn => ⟨nodup_callRestore now _ b, hnode n hn⟩,
    ⟨nodup_callRestore now _ b, hall⟩, fun e => ?_, ?_, fun callId => (htracked callId).createdAt_eq⟩
  · rw [hall]
    constructor
    · intro hlive
      have hne : e.nodeId ≠ [] := by
        obtain ⟨reg, hlast, -, hreg, -⟩ := hlive
        rw [hreg]
        exact node_ne_run l e.callId reg hlast
      exact ⟨e.nodeId, hne, (hnode e.nodeId hne e).2 ⟨hlive, rfl⟩⟩
    · rintro ⟨n, hn, he⟩
      exact ((hnode n hn e).1 he).1
  · intro n n' hn hn' hne e he he'
    exact hne (((hnode n hn e).1 he).2.symm.trans ((hnode n' hn' e).1 he').2)

/-- A call that is registered at noon for a minute, moves to another node, and expires. -/
def movedCall : List (Clock × SessionEvent) :=
  [(noon, .upsert ⟨ascii "c1", ascii "rtpe-01", .string (ascii "v=0"), some 60, by decide⟩),
    (noon, .upsert ⟨ascii "c1", ascii "rtpe-02", .string (ascii "v=1"), some 60, by decide⟩),
    (noonPlusMinute, .sweep)]

/-- After the sweep a minute later no node has a call to restore. -/
theorem restore_exact_movedCall :
    ExactlyOnce
      (callRestore noonPlusMinute (.string (ascii "rtpe-02")) (run serve Box.init movedCall))
      fun e => (run Directory.step Directory.init movedCall).Live noonPlusMinute.epoch e ∧
        e.nodeId = ascii "rtpe-02" :=
  (restore_exact (l := movedCall) (by decide +kernel)).1 (ascii "rtpe-02") (by decide)

end VoipBackend
