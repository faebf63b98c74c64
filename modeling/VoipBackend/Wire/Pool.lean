import VoipBackend.Lib.RoundRobin
import VoipBackend.Wire.SpaceId

/-!
# The pool of a cluster handle

`tnt_setup_pool` makes the connections of a handle of the OpenSIPS driver, and `tnt_get_conn` deals
them out in turn: it takes an index under the mutex of the handle, moves it on, and leaves the rest
to whoever asked.  It does not look for a connection that works, and does not know which are in use.

* `pool_projects` — a connection of the pool is a connection on its own that gets every n-th request;
  what becomes of a request is up to the connection whose turn it is, whatever the others are like.
* `requests_apart_iff` — two threads are never at one connection in exactly the runs in which the
  requests that are not through when another starts are among the n - 1 started last.
* `requests_serial` — then what comes of the requests is what comes of them one after the other.
-/

namespace VoipBackend

open Library

namespace OpenSips

/-! ## A handle -/

/-- What the requests read and write of a `tnt_cluster_con_t`: `current_idx`, `conns` and
`space_id`. -/
structure Handle where
  pool : Rota Conn
  spaceId : ℕ

/-- The loop of `tnt_setup_pool` over the connections, unless they are made when needed. -/
def connectAll (tcon : Cluster) : ℕ → List Net → List Conn × ℕ
  | spaceId, [] => ([], spaceId)
  | spaceId, net :: nets =>
      let (_, c, spaceId) := tntConnectSingle tcon { net with spaceId := spaceId } .init
      let (conns, spaceId) := connectAll tcon spaceId nets
      (c :: conns, spaceId)

/-- `tnt_setup_pool`, with what the attempt of each connection meets. -/
def tntSetupPool (tcon : Cluster) (lazyConnect : Bool) (nets : List Net) : Handle :=
  if lazyConnect then ⟨⟨0, nets.map fun _ => .init⟩, 0⟩
  else ⟨⟨0, (connectAll tcon 0 nets).1⟩, (connectAll tcon 0 nets).2⟩

/-- A request on the connection whose turn it is.  The `space_id` is that of the handle. -/
def Handle.op (h : Handle) (a : Net × Request) : Op :=
  .request { a.1 with spaceId := h.spaceId } a.2

/-- The report of a request, unless there is no connection at all. -/
def Handle.report (tcon : Cluster) (h : Handle) (a : Net × Request) : Option Report :=
  h.pool.slots[h.pool.next]?.map fun c => (exec tcon (h.op a) c).1

/-- The `space_id` a request leaves. -/
def Handle.resolved (tcon : Cluster) (h : Handle) (a : Net × Request) : ℕ :=
  (h.pool.slots[h.pool.next]?.map fun c =>
    (tntGetConn tcon { a.1 with spaceId := h.spaceId } c).2.2).getD h.spaceId

/-- The handle after a request. -/
def Handle.step (tcon : Cluster) (h : Handle) (a : Net × Request) : Handle :=
  ⟨h.pool.step (driver tcon).step (h.op a), h.resolved tcon a⟩

/-- The requests of a run, as operations on the connections. -/
def Handle.ops (tcon : Cluster) (h : Handle) (l : List (Net × Request)) : List Op :=
  emitted (Handle.step tcon) (fun h a => [h.op a]) h l

/-! ## A connection on its own -/

variable {tcon : Cluster}

/-- The connections of a run are those of a ring. -/
theorem pool_run (h : Handle) (l : List (Net × Request)) :
    (run (Handle.step tcon) h l).pool = run (Rota.step (driver tcon).step) h.pool (h.ops tcon l) := by
  induction l generalizing h with
  | nil => rfl
  | cons a l ih =>
    rw [run_cons, ih]
    rfl

theorem length_ops (h : Handle) (l : List (Net × Request)) : (h.ops tcon l).length = l.length := by
  induction l generalizing h with
  | nil => rfl
  | cons a l ih =>
    have hrest := ih (h.step tcon a)
    simp only [Handle.ops, emitted, List.length_append, List.length_cons] at hrest ⊢
    simp [hrest, Nat.add_comm]

/-- A new connection is sound, and so it is after the attempt of `tnt_setup_pool`. -/
theorem sound_setupPool (lazyConnect : Bool) (nets : List Net) :
    ∀ c ∈ (tntSetupPool tcon lazyConnect nets).pool.slots, c.view.Sound := by
  have hattempts : ∀ spaceId, ∀ c ∈ (connectAll tcon spaceId nets).1, c.view.Sound := by
    induction nets with
    | nil =>
      intro spaceId c hc
      cases hc
    | cons net nets ih =>
      intro spaceId c hc
      rcases List.mem_cons.1 hc with rfl | hc
      · exact (moves_connect { net with spaceId := spaceId } .init).sound sound_init
      · exact ih _ c hc
  intro c hc
  unfold tntSetupPool at hc
  split_ifs at hc
  · obtain ⟨net, -, rfl⟩ := List.mem_map.1 hc
    exact sound_init
  · exact hattempts 0 c hc

/-- The pool has as many connections as it was set up with, and starts with the first. -/
theorem length_setupPool (lazyConnect : Bool) (nets : List Net) :
    (tntSetupPool tcon lazyConnect nets).pool.slots.length = nets.length := by
  have hattempts : ∀ spaceId, (connectAll tcon spaceId nets).1.length = nets.length := by
    induction nets with
    | nil =>
      intro spaceId
      rfl
    | cons net nets ih =>
      intro spaceId
      simp [connectAll, ih]
  unfold tntSetupPool
  split_ifs
  · simp
  · simp [hattempts]

theorem next_setupPool (lazyConnect : Bool) (nets : List Net) :
    (tntSetupPool tcon lazyConnect nets).pool.next = 0 := by
  unfold tntSetupPool
  split_ifs <;> rfl

/-- **A connection of the pool is one on its own.**  After any requests, whatever came of them, the
i-th of n connections is where the requests at the positions i, i + n, .. have taken it; it is well
kept, so that it is not tried before its deadline while it is disabled; and the next request comes
out as it does on the connection whose turn it is, be there others that work or not. -/
theorem pool_projects (tcon : Cluster) (lazyConnect : Bool) (nets : List Net)
    (l : List (Net × Request)) {i : ℕ} (hi : i < nets.length) :
    ∃ c₀ : Conn, (tntSetupPool tcon lazyConnect nets).pool.slots[i]? = some c₀ ∧
      (driver tcon).WellKept c₀ ∧
      (run (Handle.step tcon) (tntSetupPool tcon lazyConnect nets) l).pool.slots[i]? =
        some (run (driver tcon).step c₀
          (lane nets.length i ((tntSetupPool tcon lazyConnect nets).ops tcon l))) ∧
      (lane nets.length i ((tntSetupPool tcon lazyConnect nets).ops tcon l)).length =
        (l.length + (nets.length - 1 - i)) / nets.length ∧
      ∀ a, l.length % nets.length = i →
        (run (Handle.step tcon) (tntSetupPool tcon lazyConnect nets) l).report tcon a =
          some (exec tcon ((run (Handle.step tcon) (tntSetupPool tcon lazyConnect nets) l).op a)
            (run (driver tcon).step c₀
              (lane nets.length i ((tntSetupPool tcon lazyConnect nets).ops tcon l)))).1 := by
  have hlen : (tntSetupPool tcon lazyConnect nets).pool.slots.length = nets.length :=
    length_setupPool lazyConnect nets
  have hfirst : (tntSetupPool tcon lazyConnect nets).pool.next = 0 := next_setupPool lazyConnect nets
  have hsound : ∀ c ∈ (tntSetupPool tcon lazyConnect nets).pool.slots, c.view.Sound :=
    sound_setupPool lazyConnect nets
  generalize tntSetupPool tcon lazyConnect nets = h at hlen hfirst hsound
  have hnext : h.pool.next < h.pool.slots.length := by omega
  have hslot : i < h.pool.slots.length := by omega
  have hwait : h.pool.wait i = i := by
    rw [Rota.wait, hfirst, if_pos (Nat.zero_le i), Nat.sub_zero]
  have hconn : (run (Handle.step tcon) h l).pool.slots[i]? =
      some (run (driver tcon).step h.pool.slots[i] (lane nets.length i (h.ops tcon l))) := by
    rw [pool_run, Rota.slots_run hnext hslot, hwait, hlen, List.getElem?_eq_getElem hslot]
    rfl
  refine ⟨h.pool.slots[i], List.getElem?_eq_getElem hslot, ?_, hconn, ?_, ?_⟩
  · exact (disciplined tcon).wellKept (hsound _ (List.getElem_mem hslot))
  · rw [length_lane hi, length_ops]
  · intro a hturn
    have hturn : (run (Handle.step tcon) h l).pool.next = i := by
      rw [pool_run, Rota.next_run hnext, hfirst, hlen, length_ops, Nat.zero_add, hturn]
    rw [Handle.report, hturn, hconn]
    rfl

/-- A cluster for the space of the calls. -/
def callsCluster : Cluster := ⟨[], [], ascii "rtpe_calls", 10, 3⟩

theorem pool_projects_two :
    ∃ c₀ : Conn, (tntSetupPool callsCluster true [.calm, .calm]).pool.slots[1]? = some c₀ ∧
      (driver callsCluster).WellKept c₀ ∧
      (run (Handle.step callsCluster) (tntSetupPool callsCluster true [.calm, .calm])
        [(.calm, .remove (ascii "a"))]).report callsCluster (.calm, .get (ascii "a")) =
        some (exec callsCluster ((run (Handle.step callsCluster)
          (tntSetupPool callsCluster true [.calm, .calm])
            [(.calm, .remove (ascii "a"))]).op (.calm, .get (ascii "a"))) c₀).1 := by
  obtain ⟨c₀, hslot, hkept, -, -, hreport⟩ := pool_projects callsCluster true [.calm, .calm]
    [(.calm, .remove (ascii "a"))] (i := 1) (by decide)
  exact ⟨c₀, hslot, hkept, hreport (.calm, .get (ascii "a")) rfl⟩

/-! ## Threads -/

/-- The threads of a process, over a handle whose space is known.  `tnt_get_conn` gives the thread a
connection under the lock; it finds the connection as it is then, and leaves it behind when the
request is through. -/
def Handle.threads (tcon : Cluster) (h : Handle) : Shifts Conn (Net × Request) Report →
    Visit (Net × Request) → Shifts Conn (Net × Request) Report :=
  Shifts.step (fun c a => (driver tcon).step c (h.op a)) fun c a => (exec tcon (h.op a) c).1

/-- The reports of requests made one after the other. -/
def Handle.reports (tcon : Cluster) (h : Handle) (l : List (Net × Request)) : List Report :=
  emitted (Handle.step tcon) (fun h a => (h.report tcon a).toList) h l

/-- The requests the threads start, in order. -/
def requestsOf (l : List (Visit (Net × Request))) : List (Net × Request) := l.flatMap Visit.actions

/-- **When threads keep apart.**  No two requests are at one connection in exactly the runs in which,
whenever a request starts, those that are not through are among the last started, one less than there
are connections; the lock does not see to it. -/
theorem requests_apart_iff (tcon : Cluster) (h : Handle) (hnext : h.pool.next < h.pool.slots.length)
    (l : List (Visit (Net × Request))) :
    AllSteps (h.threads tcon) (fun u v => (h.threads tcon u v).Exclusive) (.start h.pool) l ↔
      AllSteps (h.threads tcon) Shifts.Recent (.start h.pool) l :=
  Shifts.exclusive_iff hnext l

/-- A handle with two new connections that knows its space. -/
def twoConns : Handle := ⟨⟨0, [.init, .init]⟩, 512⟩

/-- A thread writes while another reads, and is through first. -/
def writeDuringRead : List (Visit (Net × Request)) :=
  [.take (.calm, .get (ascii "a")), .take (.calm, .set (ascii "a") (ascii "v") 60), .leave 1, .leave 0]

theorem requests_apart_iff_twoConns :
    AllSteps (twoConns.threads callsCluster)
        (fun u v => (twoConns.threads callsCluster u v).Exclusive) (.start twoConns.pool)
        writeDuringRead ↔
      AllSteps (twoConns.threads callsCluster) Shifts.Recent (.start twoConns.pool)
        writeDuringRead :=
  requests_apart_iff callsCluster twoConns (by decide) writeDuringRead

/-- A connection leaves a `space_id` that is known as it is. -/
theorem spaceId_tntGetConn {net : Net} (hspace : net.spaceId ≠ 0) (c : Conn) :
    (tntGetConn tcon net c).2.2 = net.spaceId := by
  unfold tntGetConn
  split_ifs
  · by_cases hexit : (tntConnectSingle tcon net c).1.exit = .completed
    · rw [spaceId_of_completed hexit, if_neg hspace]
    · obtain heq | ⟨-, ⟨_, _, _, -, -, heq⟩ | heq | ⟨_, _, _, -, -, heq⟩⟩ :=
        tntConnectSingle_cases tcon net c
      · rw [heq]
      · rw [heq]
      · rw [heq]
      · rw [heq] at hexit
        exact absurd rfl hexit
  · rfl

/-- A handle that knows its space keeps it. -/
theorem resolved_of_ne_zero {h : Handle} (hspace : h.spaceId ≠ 0) (a : Net × Request) :
    h.resolved tcon a = h.spaceId := by
  unfold Handle.resolved
  cases h.pool.slots[h.pool.next]? with
  | none => rfl
  | some c => exact spaceId_tntGetConn hspace c

/-- With the space known, the connections of a handle take turns at the requests themselves. -/
theorem serial_handle (tcon : Cluster) {h : Handle} (hspace : h.spaceId ≠ 0) (l : List (Net × Request)) :
    (run (Handle.step tcon) h l).pool =
        run (Rota.step fun c a => (driver tcon).step c (h.op a)) h.pool l ∧
      h.reports tcon l = h.pool.results (fun c a => (driver tcon).step c (h.op a))
        (fun c a => (exec tcon (h.op a) c).1) l := by
  suffices hgen : ∀ h' : Handle, h'.spaceId = h.spaceId →
      (run (Handle.step tcon) h' l).pool =
          run (Rota.step fun c a => (driver tcon).step c (h.op a)) h'.pool l ∧
        h'.reports tcon l = h'.pool.results (fun c a => (driver tcon).step c (h.op a))
          (fun c a => (exec tcon (h.op a) c).1) l from hgen h rfl
  induction l with
  | nil =>
    intro h' _
    exact ⟨rfl, rfl⟩
  | cons a l ih =>
    intro h' hsame
    have hop : h'.op a = h.op a := by
      rw [Handle.op, hsame, Handle.op]
    have hkept : (h'.step tcon a).spaceId = h.spaceId := by
      show h'.resolved tcon a = h.spaceId
      rw [resolved_of_ne_zero (by rwa [hsame]), hsame]
    obtain ⟨hpool, hreports⟩ := ih _ hkept
    have hstep : (h'.step tcon a).pool =
        h'.pool.step (fun c a => (driver tcon).step c (h.op a)) a := by
      show h'.pool.step (driver tcon).step (h'.op a) = _
      rw [hop]
      rfl
    rw [hstep] at hpool hreports
    refine ⟨hpool, ?_⟩
    show (h'.report tcon a).toList ++ (h'.step tcon a).reports tcon l = _
    rw [hreports, Handle.report, hop]
    rfl

/-- **Requests of several threads.**  If, whenever a request starts, those that are not through are
among the last started, then, once all are through, the connections are where the requests take them
one after the other in the order they started in, and each request has the report it has there. -/
theorem requests_serial (tcon : Cluster) (h : Handle) (hnext : h.pool.next < h.pool.slots.length)
    (hspace : h.spaceId ≠ 0) (l : List (Visit (Net × Request)))
    (hl : AllSteps (h.threads tcon) Shifts.Recent (.start h.pool) l)
    (hthrough : (run (h.threads tcon) (.start h.pool) l).held = []) :
    (run (h.threads tcon) (.start h.pool) l).rota =
        (run (Handle.step tcon) h (requestsOf l)).pool ∧
      ∀ j r, (j, r) ∈ (run (h.threads tcon) (.start h.pool) l).results ↔
        (h.reports tcon (requestsOf l))[j]? = some r := by
  have hagrees := Shifts.serial hnext hl
  obtain ⟨hpool, hreports⟩ := serial_handle tcon hspace (requestsOf l)
  have hlength := Shifts.length_results (f := fun c a => (driver tcon).step c (h.op a))
    (g := fun c a => (exec tcon (h.op a) c).1) hnext (requestsOf l)
  generalize hu : run (h.threads tcon) (.start h.pool) l = u at hthrough ⊢
  change Shifts.Agrees _ _ _ (run (h.threads tcon) (.start h.pool) l) _ at hagrees
  rw [hu] at hagrees
  constructor
  · have hturn : u.rota.next = (run (Handle.step tcon) h (requestsOf l)).pool.next := by
      rw [hpool, Rota.next_run hnext, hagrees.next, hagrees.taken]
      rfl
    have hslots : u.rota.slots = (run (Handle.step tcon) h (requestsOf l)).pool.slots := by
      apply List.ext_getElem?
      intro i
      rw [hpool]
      apply hagrees.free
      intro t ht
      rw [hthrough] at ht
      cases ht
    exact Rota.ext hturn hslots
  · intro j r
    rw [hreports]
    constructor
    · exact hagrees.results (j, r)
    · intro hreport
      have hj : j < u.taken := by
        have hlt := (List.getElem?_eq_some_iff.1 hreport).1
        rw [hagrees.taken]
        exact hlength ▸ hlt
      obtain ⟨t, ht, -⟩ | ⟨x, hx⟩ := hagrees.all j hj
      · rw [hthrough] at ht
        cases ht
      · have hsame := hagrees.results _ hx
        change (h.pool.results _ _ (requestsOf l))[j]? = some x at hsame
        rw [hreport] at hsame
        cases hsame
        exact hx

theorem requests_serial_twoConns :
    (run (twoConns.threads callsCluster) (.start twoConns.pool) writeDuringRead).rota =
      (run (Handle.step callsCluster) twoConns (requestsOf writeDuringRead)).pool :=
  (requests_serial callsCluster twoConns (by decide) (by decide) writeDuringRead (by decide)
    (by decide)).1

end OpenSips

end VoipBackend
