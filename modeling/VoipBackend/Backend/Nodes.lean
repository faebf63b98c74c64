import VoipBackend.Lib.Execution
import VoipBackend.Backend.Schema

/-!
# The media nodes

The procedures of `app/rtpe_service.lua` on the space `cluster_nodes`: an RTPEngine node reports its
address and how many calls it has (`node_heartbeat`), and a proxy asks for the node with the fewest
(`select_optimal_node`).  A node whose last report is ten seconds old is not asked any more.

After any reports the answer is the node with the fewest calls among those whose latest report is
fresh, and none if there is none.  But a count of calls that comes as `cdata`, as Tarantool hands
over an integer from `10 ^ 14` on, is no number to `node_heartbeat` and is stored as 0: then the
busiest node is asked, unless a node in front of it has no calls (`selects_least_loaded_iff`).
-/

namespace VoipBackend

open Library

/-- Space `cluster_nodes` (513). -/
structure ClusterNode where
  nodeId : LuaString
  address : LuaString
  status : LuaString
  activeCalls : ℕ
  lastPing : ℕ
  deriving DecidableEq

/-- The space. -/
abbrev ClusterNodes := KeyedTable ClusterNode.nodeId

/-! ## Reports -/

/-- The arguments of `node_heartbeat`. -/
structure HeartbeatArgs where
  nodeId : LuaValue
  address : LuaValue
  activeCalls : LuaValue

/-- What `node_heartbeat` answers. -/
inductive HeartbeatReply where
  | error (message : String)
  | updated (nodeId : LuaString) (updatedAt : ℕ)
  deriving DecidableEq

/-- `calls`: the argument if it is a number that is not negative.  An integer that is `cdata` is
none. -/
def HeartbeatArgs.calls (a : HeartbeatArgs) : ℚ :=
  match a.activeCalls with
  | .number q => if 0 ≤ q then q else 0
  | _ => 0

/-- The calls a report tells of. -/
def HeartbeatArgs.load (a : HeartbeatArgs) : ℚ :=
  match a.activeCalls with
  | .cdata z => if 0 ≤ z then z else 0
  | _ => a.calls

/-- `addr`: the argument if it is a string. -/
def HeartbeatArgs.addr (a : HeartbeatArgs) : LuaString :=
  match a.address with
  | .string s => s
  | _ => ascii "127.0.0.1:22222"

/-- `rtpe_service.node_heartbeat`. -/
def nodeHeartbeat (now : Clock) (a : HeartbeatArgs) (space : ClusterNodes) :
    Except LuaError HeartbeatReply × ClusterNodes :=
  match a.nodeId with
  | .string nodeId =>
      match checkField "cluster_nodes" "active_calls" (unsigned? a.calls) with
      | .error e => (.error e, space)
      | .ok calls =>
          (.ok (.updated nodeId now.epoch),
            space.put ⟨nodeId, a.addr, ascii "active", calls, now.epoch⟩)
  | _ => (.ok (.error "Invalid node_id"), space)

/-! ## Selection -/

/-- The record `select_optimal_node` makes of a tuple. -/
structure NodeRecord where
  nodeId : LuaString
  address : LuaString
  activeCalls : ℕ
  deriving DecidableEq

/-- The record of a tuple. -/
def ClusterNode.record (n : ClusterNode) : NodeRecord := ⟨n.nodeId, n.address, n.activeCalls⟩

/-- The local variables of the loop. -/
structure Selection where
  bestNode : Option NodeRecord
  minCalls : LuaNumber

/-- `status == 'active' and (now - last_ping) < 10`. -/
def ClusterNode.Online (now : ℕ) (n : ClusterNode) : Prop :=
  n.status = ascii "active" ∧ (now : ℤ) - n.lastPing < 10

instance (now : ℕ) (n : ClusterNode) : Decidable (n.Online now) :=
  inferInstanceAs (Decidable (_ ∧ _))

/-- The body of the loop over the tuples. -/
def Selection.visit (now : ℕ) (s : Selection) (n : ClusterNode) : Selection :=
  if n.Online now then
    if s.minCalls.gt n.activeCalls then ⟨some n.record, .fin n.activeCalls⟩ else s
  else s

/-- `rtpe_service.select_optimal_node`. -/
def selectOptimalNode (now : Clock) (space : ClusterNodes) : Option NodeRecord :=
  (space.rows.foldl (Selection.visit now.epoch) ⟨none, .inf⟩).bestNode

/-- The loop keeps the first of the online nodes with the fewest calls, and its calls. -/
theorem foldl_visit (now : ℕ) (l : List ClusterNode) :
    l.foldl (Selection.visit now) ⟨none, .inf⟩ =
      match (l.filter fun n => decide (n.Online now)).argmin ClusterNode.activeCalls with
      | none => ⟨none, .inf⟩
      | some n => ⟨some n.record, .fin n.activeCalls⟩ := by
  induction l using List.reverseRecOn with
  | nil => rfl
  | append_singleton l n ih =>
    rw [List.foldl_append, ih, List.filter_append]
    by_cases honline : n.Online now
    · have hfilter : [n].filter (fun n => decide (n.Online now)) = [n] := by simp [honline]
      rw [hfilter, List.argmin_concat]
      cases (l.filter fun n => decide (n.Online now)).argmin ClusterNode.activeCalls with
      | none => simp [Selection.visit, honline, LuaNumber.gt]
      | some m =>
        by_cases hless : n.activeCalls < m.activeCalls
        · simp [Selection.visit, honline, LuaNumber.gt, hless]
        · simp [Selection.visit, honline, LuaNumber.gt, hless]
    · have hfilter : [n].filter (fun n => decide (n.Online now)) = [] := by simp [honline]
      rw [hfilter, List.append_nil, List.foldl_cons, List.foldl_nil, Selection.visit,
        if_neg honline]

/-- **What is selected.**  Nothing if no node is online. -/
theorem selectOptimalNode_eq_none_iff (now : Clock) (space : ClusterNodes) :
    selectOptimalNode now space = none ↔ ∀ n ∈ space.rows, ¬ n.Online now.epoch := by
  rw [selectOptimalNode, foldl_visit]
  cases hmin : (space.rows.filter fun n => decide (n.Online now.epoch)).argmin
      ClusterNode.activeCalls with
  | none =>
    rw [List.argmin_eq_none, List.filter_eq_nil_iff] at hmin
    exact iff_of_true rfl fun n hn => by simpa using hmin n hn
  | some m =>
    refine iff_of_false (by simp) fun hnone => ?_
    have hm := List.mem_filter.1 (List.argmin_mem hmin)
    exact hnone m hm.1 (by simpa using hm.2)

/-- **What is selected.**  The online node with the fewest calls, the first of them. -/
theorem selectOptimalNode_eq_some {now : Clock} {space : ClusterNodes} {best : NodeRecord}
    (h : selectOptimalNode now space = some best) :
    ∃ m ∈ space.rows, m.Online now.epoch ∧ best = m.record ∧
      ∀ n ∈ space.rows, n.Online now.epoch → m.activeCalls ≤ n.activeCalls ∧
        (n.activeCalls = m.activeCalls → m.nodeId ≤ n.nodeId) := by
  rw [selectOptimalNode, foldl_visit] at h
  cases hmin : (space.rows.filter fun n => decide (n.Online now.epoch)).argmin
      ClusterNode.activeCalls with
  | none =>
    rw [hmin] at h
    cases h
  | some m =>
    rw [hmin] at h
    have hleast := KeyedTable.mem_argmin_rows
      (t := space.filter fun n => decide (n.Online now.epoch)).1 hmin
    have hm := List.mem_filter.1 hleast.1
    refine ⟨m, hm.1, by simpa using hm.2, (Option.some.inj h).symm, fun n hn honline => ?_⟩
    exact hleast.2 n (List.mem_filter.2 ⟨hn, by simpa using honline⟩)

/-! ## After any reports -/

/-- A report: when it comes, and its arguments. -/
abbrev Heartbeat := Clock × HeartbeatArgs

/-- The space after these reports. -/
def heartbeats (l : List Heartbeat) : ClusterNodes :=
  run (fun space x => (nodeHeartbeat x.1 x.2 space).2) .empty l

/-- The report is one of this node, and its calls fit their field. -/
def AcceptedFor (nodeId : LuaString) (x : Heartbeat) : Prop :=
  x.2.nodeId.string? = some nodeId ∧ (unsigned? x.2.calls).isSome

instance (nodeId : LuaString) (x : Heartbeat) : Decidable (AcceptedFor nodeId x) :=
  inferInstanceAs (Decidable (_ ∧ _))

/-- The latest report of a node. -/
def latest (l : List Heartbeat) (nodeId : LuaString) : Option Heartbeat :=
  l.reverse.find? fun x => decide (AcceptedFor nodeId x)

/-- The report is less than ten seconds old. -/
def Fresh (now : Clock) (x : Heartbeat) : Prop := (now.epoch : ℤ) - x.1.epoch < 10

/-- The tuple a report writes. -/
def Heartbeat.tuple (x : Heartbeat) (nodeId : LuaString) (calls : ℕ) : ClusterNode :=
  ⟨nodeId, x.2.addr, ascii "active", calls, x.1.epoch⟩

/-- A report with a whole number of calls is accepted, and tells of that number. -/
theorem acceptedFor_whole (now : Clock) (nodeId : LuaString) (address : LuaValue) {n : ℕ}
    (hn : n < 2 ^ 64) {v : LuaValue} (hv : v = .number n ∨ v = .cdata n) :
    AcceptedFor nodeId (now, ⟨.string nodeId, address, v⟩) ∧
      HeartbeatArgs.load ⟨.string nodeId, address, v⟩ = n := by
  rcases hv with rfl | rfl
  · have hcalls : HeartbeatArgs.calls ⟨.string nodeId, address, .number n⟩ = n :=
      if_pos (Nat.cast_nonneg n)
    refine ⟨⟨rfl, ?_⟩, hcalls⟩
    show (unsigned? (HeartbeatArgs.calls ⟨.string nodeId, address, .number n⟩)).isSome
    rw [hcalls, unsigned?_natCast hn]
    rfl
  · refine ⟨⟨rfl, rfl⟩, ?_⟩
    simp [HeartbeatArgs.load]

/-- What a report does: it writes the tuple of its node, if it is accepted. -/
theorem get_nodeHeartbeat (x : Heartbeat) (space : ClusterNodes) (k : LuaString) :
    (nodeHeartbeat x.1 x.2 space).2.get k =
      if AcceptedFor k x then (unsigned? x.2.calls).map (x.tuple k) else space.get k := by
  obtain ⟨now, a⟩ := x
  show (nodeHeartbeat now a space).2.get k = _
  rw [nodeHeartbeat]
  cases hid : a.nodeId with
  | string nodeId =>
    cases hcalls : unsigned? a.calls with
    | none =>
      rw [if_neg]
      · rfl
      · rintro ⟨-, hsome⟩
        rw [show unsigned? (now, a).2.calls = none from hcalls] at hsome
        cases hsome
    | some calls =>
      simp only [checkField, KeyedTable.get_put, AcceptedFor, hid, hcalls, LuaValue.string?,
        Option.some.injEq, Option.isSome_some, and_true, Option.map_some]
      by_cases hk : k = nodeId
      · rw [if_pos hk, if_pos hk.symm, hk]
        rfl
      · rw [if_neg hk, if_neg (Ne.symm hk)]
  | _ =>
    rw [if_neg]
    rintro ⟨hstring, -⟩
    rw [show (now, a).2.nodeId = _ from hid] at hstring
    cases hstring

/-- The space holds what the latest report of each node has written. -/
theorem get_heartbeats (l : List Heartbeat) (k : LuaString) :
    (heartbeats l).get k =
      (latest l k).bind fun x => (unsigned? x.2.calls).map (x.tuple k) := by
  induction l using List.reverseRecOn with
  | nil => rfl
  | append_singleton l x ih =>
    have hstep : heartbeats (l ++ [x]) = (nodeHeartbeat x.1 x.2 (heartbeats l)).2 := by
      rw [heartbeats, run_append]
      rfl
    rw [hstep, get_nodeHeartbeat, latest, List.reverse_append, List.reverse_singleton,
      List.singleton_append]
    by_cases haccepted : AcceptedFor k x
    · rw [if_pos haccepted, List.find?_cons_of_pos (by simpa using haccepted)]
      rfl
    · rw [if_neg haccepted, List.find?_cons_of_neg (by simpa using haccepted), ih]
      rfl

/-- The tuples are the latest reports. -/
theorem mem_heartbeats_iff {l : List Heartbeat} {n : ClusterNode} :
    n ∈ (heartbeats l).rows ↔ ∃ x calls, latest l n.nodeId = some x ∧
      unsigned? x.2.calls = some calls ∧ n = x.tuple n.nodeId calls := by
  rw [KeyedTable.mem_rows_iff, get_heartbeats, Option.bind_eq_some_iff]
  constructor
  · rintro ⟨x, hx, htuple⟩
    obtain ⟨calls, hcalls, heq⟩ := Option.map_eq_some_iff.1 htuple
    exact ⟨x, calls, hx, hcalls, heq.symm⟩
  · rintro ⟨x, calls, hx, hcalls, heq⟩
    exact ⟨x, hx, by rw [hcalls, Option.map_some, ← heq]⟩

/-- The latest report of a node is one of its own. -/
theorem mem_of_latest {l : List Heartbeat} {k : LuaString} {x : Heartbeat}
    (h : latest l k = some x) : x ∈ l ∧ AcceptedFor k x :=
  ⟨List.mem_reverse.1 (List.mem_of_find?_eq_some h), by simpa using List.find?_some h⟩

/-- Every latest report is in a tuple. -/
theorem tuple_of_latest {l : List Heartbeat} {k : LuaString} {x : Heartbeat}
    (h : latest l k = some x) :
    ∃ calls, unsigned? x.2.calls = some calls ∧ x.tuple k calls ∈ (heartbeats l).rows := by
  obtain ⟨calls, hcalls⟩ := Option.isSome_iff_exists.1 (mem_of_latest h).2.2
  exact ⟨calls, hcalls, mem_heartbeats_iff.2 ⟨x, calls, h, hcalls, rfl⟩⟩

theorem online_tuple_iff (now : Clock) (x : Heartbeat) (k : LuaString) (calls : ℕ) :
    (x.tuple k calls).Online now.epoch ↔ Fresh now x :=
  and_iff_right rfl

/-- Nothing is selected exactly if no node has a latest report that is fresh. -/
theorem selectOptimalNode_heartbeats_eq_none_iff (l : List Heartbeat) (now : Clock) :
    selectOptimalNode now (heartbeats l) = none ↔ ∀ k x, latest l k = some x → ¬ Fresh now x := by
  rw [selectOptimalNode_eq_none_iff]
  constructor
  · intro hnone k x hx hfresh
    obtain ⟨calls, -, hmem⟩ := tuple_of_latest hx
    exact hnone _ hmem ((online_tuple_iff now x k calls).2 hfresh)
  · intro hnone n hn honline
    obtain ⟨x, calls, hx, -, heq⟩ := mem_heartbeats_iff.1 hn
    rw [heq, online_tuple_iff] at honline
    exact hnone _ x hx honline

/-- What is selected has the fewest of the calls that are counted. -/
theorem selectOptimalNode_heartbeats_eq_some {l : List Heartbeat} {now : Clock} {best : NodeRecord}
    (h : selectOptimalNode now (heartbeats l) = some best) :
    ∃ x, latest l best.nodeId = some x ∧ Fresh now x ∧ best.address = x.2.addr ∧
      best.activeCalls = x.2.calls ∧
      ∀ k y, latest l k = some y → Fresh now y → best.activeCalls ≤ y.2.calls ∧
        (y.2.calls = best.activeCalls → best.nodeId ≤ k) := by
  obtain ⟨m, hm, honline, rfl, hleast⟩ := selectOptimalNode_eq_some h
  obtain ⟨x, calls, hx, hcalls, heq⟩ := mem_heartbeats_iff.1 hm
  have hloads : m.activeCalls = calls := by rw [heq]; rfl
  refine ⟨x, hx, ?_, by rw [heq]; rfl, ?_, fun k y hy hfresh => ?_⟩
  · rw [heq, online_tuple_iff] at honline
    exact honline
  · rw [eq_natCast_of_unsigned? hcalls, ← hloads]
    rfl
  · obtain ⟨calls', hcalls', hmem⟩ := tuple_of_latest hy
    have hle := hleast _ hmem ((online_tuple_iff now y k calls').2 hfresh)
    rw [eq_natCast_of_unsigned? hcalls']
    refine ⟨by exact_mod_cast hle.1, fun hsame => hle.2 ?_⟩
    exact_mod_cast hsame

/-! ## Which calls count -/

/-- The report tells of calls that come as `cdata`. -/
def HeartbeatArgs.Uncounted (a : HeartbeatArgs) : Prop := ∃ z, a.activeCalls = .cdata z ∧ 0 < z

theorem calls_of_uncounted {a : HeartbeatArgs} (h : a.Uncounted) : a.calls = 0 ∧ 0 < a.load := by
  obtain ⟨z, hz, hpos⟩ := h
  simp [HeartbeatArgs.calls, HeartbeatArgs.load, hz, hpos, hpos.le]

theorem calls_of_not_uncounted {a : HeartbeatArgs} (h : ¬ a.Uncounted) : a.calls = a.load := by
  unfold HeartbeatArgs.load
  cases hcalls : a.activeCalls with
  | cdata z =>
    have hle : z ≤ 0 := not_lt.1 fun hpos => h ⟨z, hcalls, hpos⟩
    simp only [HeartbeatArgs.calls, hcalls]
    split_ifs with hz
    · rw [le_antisymm hle hz, Int.cast_zero]
    · rfl
  | _ => rfl

theorem calls_le_load (a : HeartbeatArgs) : a.calls ≤ a.load := by
  by_cases h : a.Uncounted
  · exact (calls_of_uncounted h).1.le.trans (calls_of_uncounted h).2.le
  · exact (calls_of_not_uncounted h).le

/-- What is asked for: nothing exactly if no node has a latest report that is fresh; and otherwise a
node whose latest report is, with the address and the calls of that report, which has the fewest
calls among these nodes and is the first of those. -/
structure SelectsLeastLoaded (l : List Heartbeat) (now : Clock) : Prop where
  none_iff : selectOptimalNode now (heartbeats l) = none ↔
    ∀ k x, latest l k = some x → ¬ Fresh now x
  least : ∀ best, selectOptimalNode now (heartbeats l) = some best →
    ∃ x, latest l best.nodeId = some x ∧ Fresh now x ∧ best.address = x.2.addr ∧
      best.activeCalls = x.2.load ∧
      ∀ k y, latest l k = some y → Fresh now y → best.activeCalls ≤ y.2.load ∧
        (y.2.load = best.activeCalls → best.nodeId ≤ k)

/-- Each node whose calls do not count is behind a node without calls. -/
def UncountedBehindIdle (l : List Heartbeat) (now : Clock) : Prop :=
  ∀ k x, latest l k = some x → Fresh now x → x.2.Uncounted →
    ∃ k' y, k' < k ∧ latest l k' = some y ∧ Fresh now y ∧ y.2.load = 0

theorem selectsLeastLoaded_iff (l : List Heartbeat) (now : Clock) :
    SelectsLeastLoaded l now ↔ UncountedBehindIdle l now := by
  constructor
  · intro h k x hx hfresh huncounted
    obtain ⟨hzero, hpos⟩ := calls_of_uncounted huncounted
    cases hbest : selectOptimalNode now (heartbeats l) with
    | none => exact absurd hfresh (h.none_iff.1 hbest k x hx)
    | some best =>
      obtain ⟨y, hy, hyfresh, -, hload, -⟩ := h.least best hbest
      obtain ⟨z, -, -, -, -, hleast⟩ := selectOptimalNode_heartbeats_eq_some hbest
      -- The node that is asked has no calls in the space, and so none in its report.
      obtain ⟨hle, hfirst⟩ := hleast k x hx hfresh
      rw [hzero] at hle hfirst
      have hidle : (best.activeCalls : ℚ) = 0 := le_antisymm hle (Nat.cast_nonneg _)
      have hyzero : y.2.load = 0 := by rw [← hload, hidle]
      refine ⟨best.nodeId, y, lt_of_le_of_ne (hfirst hidle.symm) ?_, hy, hyfresh, hyzero⟩
      rintro rfl
      rw [hx, Option.some.injEq] at hy
      rw [hy, hyzero] at hpos
      exact lt_irrefl _ hpos
  · intro h
    refine ⟨selectOptimalNode_heartbeats_eq_none_iff l now, fun best hbest => ?_⟩
    obtain ⟨x, hx, hfresh, haddr, hcalls, hleast⟩ := selectOptimalNode_heartbeats_eq_some hbest
    have hcounted : ¬ x.2.Uncounted := by
      intro huncounted
      obtain ⟨k', y, hlt, hy, hyfresh, hyzero⟩ := h _ x hx hfresh huncounted
      obtain ⟨hle, hfirst⟩ := hleast k' y hy hyfresh
      rw [hcalls, (calls_of_uncounted huncounted).1] at hle hfirst
      exact absurd hlt (not_lt.2 (hfirst (le_antisymm ((calls_le_load _).trans hyzero.le) hle)))
    refine ⟨x, hx, hfresh, haddr, hcalls.trans (calls_of_not_uncounted hcounted), ?_⟩
    intro k y hy hyfresh
    obtain ⟨hle, hfirst⟩ := hleast k y hy hyfresh
    refine ⟨hle.trans (calls_le_load _), fun hsame => hfirst ?_⟩
    exact le_antisymm ((calls_le_load _).trans hsame.le) hle

/-- **What is selected after any reports.**  The node with the fewest calls, exactly if each node
whose calls come as `cdata` is behind a node without calls.  A report with a whole number of calls
is always accepted. -/
theorem selects_least_loaded_iff (l : List Heartbeat) (now : Clock) :
    (SelectsLeastLoaded l now ↔ UncountedBehindIdle l now) ∧
    ∀ t k address (n : ℕ) v, n < 2 ^ 64 → v = .number n ∨ v = .cdata n →
      AcceptedFor k (t, ⟨.string k, address, v⟩) ∧
        HeartbeatArgs.load ⟨.string k, address, v⟩ = n :=
  ⟨selectsLeastLoaded_iff l now, fun t k address _ _ hn hv => acceptedFor_whole t k address hn hv⟩

/-- A node with `10 ^ 14` calls. -/
def busyReport (now : Clock) : Heartbeat :=
  (now, ⟨.string (ascii "rtpe-01"), .string (ascii "10.0.0.1:22222"), .ofUint (10 ^ 14)⟩)

/-- A node with one call. -/
def quietReport (now : Clock) : Heartbeat :=
  (now, ⟨.string (ascii "rtpe-02"), .string (ascii "10.0.0.2:22222"), .ofUint 1⟩)

/-- The node with `10 ^ 14` calls is asked. -/
theorem not_selects_least_loaded_cdata :
    ¬ ∀ (l : List Heartbeat) (now : Clock),
      (∀ x ∈ l, ∃ k n, n < 2 ^ 64 ∧ x.2.nodeId = .string k ∧ x.2.activeCalls = .ofUint n) →
        SelectsLeastLoaded l now := by
  intro h
  have now : Clock := .ofSeconds 0 (by norm_num)
  have hreports : ∀ x ∈ [busyReport now, quietReport now],
      ∃ k n, n < 2 ^ 64 ∧ x.2.nodeId = .string k ∧ x.2.activeCalls = .ofUint n := by
    rw [List.forall_mem_cons, List.forall_mem_singleton]
    exact ⟨⟨_, 10 ^ 14, by norm_num, rfl, rfl⟩, _, 1, by norm_num, rfl, rfl⟩
  have hquiet : ∀ k, AcceptedFor k (quietReport now) → k = ascii "rtpe-02" := fun k haccepted =>
    (Option.some.inj haccepted.1).symm
  have hbusy : ∀ k, AcceptedFor k (busyReport now) → k = ascii "rtpe-01" := fun k haccepted =>
    (Option.some.inj haccepted.1).symm
  have hlatest : latest [busyReport now, quietReport now] (ascii "rtpe-01") =
      some (busyReport now) := by
    have hother : ¬ AcceptedFor (ascii "rtpe-01") (quietReport now) := fun haccepted =>
      absurd (hquiet _ haccepted) (by decide)
    have hown : AcceptedFor (ascii "rtpe-01") (busyReport now) := ⟨rfl, rfl⟩
    show [quietReport now, busyReport now].find? _ = _
    rw [List.find?_cons_of_neg (by simpa using hother),
      List.find?_cons_of_pos (by simpa using hown)]
  have hfresh : Fresh now (busyReport now) := by simp [Fresh, busyReport]
  -- No node is in front of the busy one.
  obtain ⟨k, y, hlt, hy, -⟩ := (selectsLeastLoaded_iff _ now).1 (h _ now hreports) _ _ hlatest
    hfresh ⟨10 ^ 14, rfl, by norm_num⟩
  obtain ⟨hmem, haccepted⟩ := mem_of_latest hy
  rw [List.mem_cons, List.mem_singleton] at hmem
  rcases hmem with rfl | rfl
  · rw [hbusy k haccepted] at hlt
    exact absurd hlt (by decide)
  · rw [hquiet k haccepted] at hlt
    exact absurd hlt (by decide)

end VoipBackend
