import VoipBackend.Lib.Bytes
import VoipBackend.Lib.Execution
import VoipBackend.Lib.Probing

/-!
# The session tables of the containers

`docker/opensips_entrypoint.c` and `docker/kamailio_entrypoint.c`: the proxies remember the address
of a caller under its Call-ID, in a hash table with open addressing.  The two programs have the same
functions and tables of different sizes.

A store takes the first free slot of a probe run, and a removal frees a slot in the middle of it, so
that a Call-ID that is stored again may get a second slot in front of its first.  The table is a map
exactly as long as no Call-ID with two slots is removed (`isMap_iff`): the second slot then comes to
light, with an address that is out of date (`not_isMap_reused`).
-/

namespace VoipBackend

open Library

namespace Docker

/-- `struct sockaddr_in`. -/
structure SockaddrIn where
  sinFamily : UInt16
  sinPort : UInt16
  sinAddr : UInt32
  deriving DecidableEq

/-- `uac_session_t`, with `call_id` as the C string in its buffer. -/
structure UacSession where
  callId : Bytes
  addr : SockaddrIn
  addrLen : UInt32
  deriving DecidableEq

/-- `g_sessions`. -/
abbrev Sessions := ℕ → UacSession

/-- `g_sessions` before the first call. -/
def Sessions.init : Sessions := fun _ => ⟨[], ⟨0, 0, 0⟩, 0⟩

/-- `hash_call_id`. -/
def hashCallId (maxSessions : ℕ) (str : Bytes) : ℕ :=
  (str.foldl (fun (hash : UInt32) c => ((hash <<< 5) + hash) + c.toUInt32) 5381).toNat % maxSessions

/-- The slots `cur` of the loops, in order. -/
def probeRun (maxSessions : ℕ) (callId : Bytes) : List ℕ :=
  (List.range 1024).map fun i => (hashCallId maxSessions callId + i) % maxSessions

/-- The loop of `store_session`.  `snprintf` keeps 127 bytes of the Call-ID. -/
def storeLoop (callId : Bytes) (addr : SockaddrIn) (len : UInt32) : List ℕ → Sessions → Sessions
  | [], g => g
  | cur :: run, g =>
      if (g cur).callId = [] ∨ (g cur).callId = callId then
        Function.update g cur ⟨callId.take 127, addr, len⟩
      else storeLoop callId addr len run g

/-- `store_session`. -/
def storeSession (maxSessions : ℕ) (callId : Bytes) (addr : SockaddrIn) (len : UInt32)
    (g : Sessions) : Sessions := storeLoop callId addr len (probeRun maxSessions callId) g

/-- The loop of `find_session`. -/
def findLoop (callId : Bytes) (g : Sessions) : List ℕ → Option (SockaddrIn × UInt32)
  | [] => none
  | cur :: run =>
      if (g cur).callId = [] then findLoop callId g run
      else if (g cur).callId = callId then some ((g cur).addr, (g cur).addrLen)
      else findLoop callId g run

/-- `find_session`: the address and its length; `none` is a null pointer. -/
def findSession (maxSessions : ℕ) (callId : Bytes) (g : Sessions) : Option (SockaddrIn × UInt32) :=
  findLoop callId g (probeRun maxSessions callId)

/-- The loop of `delete_session`. -/
def deleteLoop (callId : Bytes) : List ℕ → Sessions → Sessions
  | [], g => g
  | cur :: run, g =>
      if (g cur).callId = [] then deleteLoop callId run g
      else if (g cur).callId = callId then Function.update g cur { g cur with callId := [] }
      else deleteLoop callId run g

/-- `delete_session`. -/
def deleteSession (maxSessions : ℕ) (callId : Bytes) (g : Sessions) : Sessions :=
  deleteLoop callId (probeRun maxSessions callId) g

/-- `MAX_SESSIONS` of the OpenSIPS container. -/
def OpenSips.maxSessions : ℕ := 65536

/-- `MAX_SESSIONS` of the Kamailio container. -/
def Kamailio.maxSessions : ℕ := 32768

/-! ## Runs -/

/-- A call of `store_session` or `delete_session`. -/
inductive SessionOp where
  | store (callId : Bytes) (addr : SockaddrIn) (len : UInt32)
  | delete (callId : Bytes)
  deriving DecidableEq

namespace SessionOp

/-- The Call-ID of a call. -/
def callId : SessionOp → Bytes
  | store callId _ _ => callId
  | delete callId => callId

/-- What the call does to the table. -/
def perform (maxSessions : ℕ) (g : Sessions) : SessionOp → Sessions
  | store callId addr len => storeSession maxSessions callId addr len g
  | delete callId => deleteSession maxSessions callId g

/-- What a call leaves under its Call-ID: the address that is stored, or nothing. -/
def stored : SessionOp → Option (SockaddrIn × UInt32)
  | store _ addr len => some (addr, len)
  | delete _ => none

end SessionOp

/-- A Call-ID that a slot can hold: not empty, and shorter than 128 bytes. -/
def ValidId (callId : Bytes) : Prop := callId ≠ [] ∧ callId.length < 128

/-- A store finds a slot in its probe run that is free or has its Call-ID. -/
def HasRoom (maxSessions : ℕ) (g : Sessions) : SessionOp → Prop
  | .store callId _ _ =>
      ∃ cur ∈ probeRun maxSessions callId, (g cur).callId = [] ∨ (g cur).callId = callId
  | .delete _ => True

/-- A removal finds its Call-ID in no more than one slot of its probe run. -/
def OneSlot (maxSessions : ℕ) (g : Sessions) : SessionOp → Prop
  | .store _ _ _ => True
  | .delete callId =>
      (probeRun maxSessions callId).countP (fun cur => decide ((g cur).callId = callId)) ≤ 1

/-- The address of the last store of a Call-ID, unless it was removed afterwards. -/
def lastStored (callId : Bytes) (ops : List SessionOp) : Option (SockaddrIn × UInt32) :=
  (ops.reverse.find? fun op => decide (op.callId = callId)).bind SessionOp.stored

/-- After every call, every Call-ID is found with the address it was last stored with, and not at
all if it was removed. -/
def IsMap (maxSessions : ℕ) (ops : List SessionOp) : Prop :=
  ∀ p, p <+: ops → ∀ callId, ValidId callId →
    findSession maxSessions callId (run (SessionOp.perform maxSessions) .init p) =
      lastStored callId p

instance (maxSessions : ℕ) (g : Sessions) : DecidablePred (HasRoom maxSessions g)
  | .store callId _ _ => inferInstanceAs (Decidable (∃ cur ∈ probeRun maxSessions callId, _))
  | .delete _ => .isTrue trivial

instance (maxSessions : ℕ) (g : Sessions) : DecidablePred (OneSlot maxSessions g)
  | .store _ _ _ => .isTrue trivial
  | .delete callId => inferInstanceAs (Decidable ((probeRun maxSessions callId).countP _ ≤ 1))

/-! ## The table as a table with open addressing -/

/-- A slot is free if its Call-ID is empty. -/
def slots (g : Sessions) : Probing.Slots ℕ Bytes (SockaddrIn × UInt32) := fun cur =>
  if (g cur).callId = [] then none else some ((g cur).callId, (g cur).addr, (g cur).addrLen)

theorem slots_update (g : Sessions) (cur : ℕ) (session : UacSession) :
    slots (Function.update g cur session) = Function.update (slots g) cur
      (if session.callId = [] then none
        else some (session.callId, session.addr, session.addrLen)) := by
  funext i
  by_cases hi : i = cur
  · subst hi
    simp [slots]
  · simp [slots, Function.update_of_ne hi]

theorem holds_slots_iff {callId : Bytes} (h : callId ≠ []) (g : Sessions) (cur : ℕ) :
    Probing.Holds (slots g) callId cur ↔ (g cur).callId = callId := by
  unfold Probing.Holds slots
  by_cases hfree : (g cur).callId = []
  · simp [hfree, Ne.symm h]
  · simp [hfree]

theorem storeSession_slots (maxSessions : ℕ) {callId : Bytes} (h : ValidId callId)
    (addr : SockaddrIn) (len : UInt32) (g : Sessions) :
    slots (storeSession maxSessions callId addr len g) =
      Probing.store (slots g) callId (addr, len) (probeRun maxSessions callId) := by
  obtain ⟨hne, hlen⟩ := h
  have hkept : callId.take 127 = callId := List.take_of_length_le (by omega)
  unfold storeSession
  induction probeRun maxSessions callId with
  | nil => rfl
  | cons cur run ih =>
    rw [storeLoop, Probing.store, slots]
    by_cases hfree : (g cur).callId = []
    · simp only [hfree, true_or, if_true]
      rw [slots_update, hkept, if_neg hne]
    · by_cases hown : (g cur).callId = callId
      · simp only [hown, hne, false_or, if_true, if_false]
        rw [slots_update, hkept, if_neg hne]
      · simp only [hfree, hown, or_self, if_false]
        exact ih

theorem findSession_slots (maxSessions : ℕ) (callId : Bytes) (g : Sessions) :
    findSession maxSessions callId g =
      Probing.find (slots g) callId (probeRun maxSessions callId) := by
  unfold findSession
  induction probeRun maxSessions callId with
  | nil => rfl
  | cons cur run ih =>
    rw [findLoop, Probing.find, slots, ih]
    by_cases hfree : (g cur).callId = []
    · simp [hfree]
    · simp [hfree]

theorem deleteSession_slots (maxSessions : ℕ) (callId : Bytes) (g : Sessions) :
    slots (deleteSession maxSessions callId g) =
      Probing.erase (slots g) callId (probeRun maxSessions callId) := by
  unfold deleteSession
  induction probeRun maxSessions callId with
  | nil => rfl
  | cons cur run ih =>
    rw [deleteLoop, Probing.erase, slots]
    by_cases hfree : (g cur).callId = []
    · simp only [hfree, if_true]
      exact ih
    · by_cases hown : (g cur).callId = callId
      · rw [if_neg hfree, if_pos hown, if_neg hfree, slots_update, if_pos rfl]
        simp only [if_pos hown]
      · simp only [hfree, hown, if_false]
        exact ih

/-- The slots of a probe run are different ones. -/
theorem nodup_probeRun {maxSessions : ℕ} (h : 1024 ≤ maxSessions) (callId : Bytes) :
    (probeRun maxSessions callId).Nodup := by
  refine List.Nodup.map_on ?_ List.nodup_range
  intro i hi j hj heq
  have hi' : i < maxSessions := lt_of_lt_of_le (List.mem_range.1 hi) h
  have hj' : j < maxSessions := lt_of_lt_of_le (List.mem_range.1 hj) h
  have hmod : i ≡ j [MOD maxSessions] := Nat.ModEq.add_left_cancel' _ heq
  exact Nat.ModEq.eq_of_lt_of_lt hmod hi' hj'

/-! ## What the calls do -/

variable {maxSessions : ℕ}

theorem countP_holds {callId : Bytes} (h : callId ≠ []) (g : Sessions) (l : List ℕ) :
    l.countP (fun cur => decide (Probing.Holds (slots g) callId cur)) =
      l.countP (fun cur => decide ((g cur).callId = callId)) := by
  refine List.countP_congr fun cur _ => ?_
  rw [decide_eq_true_eq, decide_eq_true_eq]
  exact holds_slots_iff h g cur

/-- Other Call-IDs are found as before. -/
theorem findSession_perform_of_ne (g : Sessions) {op : SessionOp} (hop : ValidId op.callId)
    {callId : Bytes} (h : callId ≠ op.callId) :
    findSession maxSessions callId (op.perform maxSessions g) =
      findSession maxSessions callId g := by
  rw [findSession_slots, findSession_slots]
  cases op with
  | store callId' addr len =>
    have hid : ValidId callId' := hop
    rw [SessionOp.perform, storeSession_slots maxSessions hid]
    exact Probing.find_store_of_ne h _ _ _
  | delete callId' =>
    rw [SessionOp.perform, deleteSession_slots]
    exact Probing.find_erase_of_ne h _ _

/-- A store is found, and a removal leaves nothing if there is only one slot to free. -/
theorem findSession_perform_self (hmax : 1024 ≤ maxSessions) {g : Sessions} {op : SessionOp}
    (hop : ValidId op.callId) (hroom : HasRoom maxSessions g op) :
    findSession maxSessions op.callId (op.perform maxSessions g) = op.stored ↔
      OneSlot maxSessions g op := by
  rw [findSession_slots]
  cases op with
  | store callId addr len =>
    have hid : ValidId callId := hop
    obtain ⟨cur, hcur, htakes⟩ := hroom
    have hslot : Probing.HasRoom (slots g) callId (probeRun maxSessions callId) := by
      refine ⟨cur, hcur, htakes.imp (fun hfree => ?_) (holds_slots_iff hid.1 g cur).2⟩
      simp [slots, hfree]
    rw [SessionOp.perform, storeSession_slots maxSessions hid]
    exact iff_of_true (Probing.find_store _ hslot) trivial
  | delete callId =>
    have hid : ValidId callId := hop
    rw [SessionOp.perform, deleteSession_slots, OneSlot, ← countP_holds hid.1 g]
    exact Probing.find_erase_eq_none_iff (nodup_probeRun hmax callId)

theorem lastStored_append (callId : Bytes) (p : List SessionOp) (op : SessionOp) :
    lastStored callId (p ++ [op]) =
      if op.callId = callId then op.stored else lastStored callId p := by
  rw [lastStored, List.reverse_append, List.reverse_singleton, List.singleton_append,
    List.find?_cons]
  split_ifs with h
  · simp [h]
  · simp [h, lastStored]

/-! ## Runs -/

/-- The table after these calls gives the last address of every Call-ID. -/
def Exact (maxSessions : ℕ) (p : List SessionOp) : Prop :=
  ∀ callId, ValidId callId →
    findSession maxSessions callId (run (SessionOp.perform maxSessions) .init p) =
      lastStored callId p

theorem exact_nil : Exact maxSessions [] := by
  intro callId _
  have hfree : ∀ cur, slots (Sessions.init) cur = none := fun _ => rfl
  show findSession maxSessions callId .init = none
  rw [findSession_slots, Probing.find_eq_none_iff]
  intro cur _ hholds
  rw [Probing.Holds, hfree] at hholds
  cases hholds

/-- **One call.**  It keeps the table exact if it is no removal of a Call-ID with two slots. -/
theorem exact_append_iff (hmax : 1024 ≤ maxSessions) {p : List SessionOp} {op : SessionOp}
    (hop : ValidId op.callId)
    (hroom : HasRoom maxSessions (run (SessionOp.perform maxSessions) .init p) op)
    (h : Exact maxSessions p) :
    Exact maxSessions (p ++ [op]) ↔
      OneSlot maxSessions (run (SessionOp.perform maxSessions) .init p) op := by
  rw [← findSession_perform_self hmax hop hroom]
  constructor
  · intro hexact
    have hself := hexact op.callId hop
    rwa [run_append, lastStored_append, if_pos rfl] at hself
  · intro hself callId hcallId
    rw [run_append, lastStored_append]
    by_cases hown : op.callId = callId
    · rw [if_pos hown, ← hown]
      exact hself
    · rw [if_neg hown, ← h callId hcallId]
      exact findSession_perform_of_ne _ hop (Ne.symm hown)

/-- **When the session table is a map.**  In a run whose stores all find room, every state gives the
last address of every Call-ID if and only if no removal meets a Call-ID that has two slots. -/
theorem isMap_iff (hmax : maxSessions ∈ [OpenSips.maxSessions, Kamailio.maxSessions])
    {ops : List SessionOp} (hops : ∀ op ∈ ops, ValidId op.callId)
    (hroom : AllSteps (SessionOp.perform maxSessions) (HasRoom maxSessions) .init ops) :
    IsMap maxSessions ops ↔
      AllSteps (SessionOp.perform maxSessions) (OneSlot maxSessions) .init ops := by
  have hlarge : 1024 ≤ maxSessions := by
    simp only [List.mem_cons, List.not_mem_nil, or_false] at hmax
    rcases hmax with rfl | rfl <;> decide
  rw [allSteps_iff_beginnings] at hroom ⊢
  have hvalid : ∀ p op, p ++ [op] <+: ops → ValidId op.callId := fun p op hp =>
    hops op (hp.subset (List.mem_append_right p List.mem_cons_self))
  constructor
  · intro h p op hp
    have hbefore : Exact maxSessions p := h p ((List.prefix_append p [op]).trans hp)
    exact (exact_append_iff hlarge (hvalid p op hp) (hroom p op hp) hbefore).1 (h _ hp)
  · intro h p
    induction p using List.reverseRecOn with
    | nil => exact fun _ => exact_nil
    | append_singleton p op ih =>
      intro hp
      have hbefore : Exact maxSessions p := ih ((List.prefix_append p [op]).trans hp)
      exact (exact_append_iff hlarge (hvalid p op hp) (hroom p op hp) hbefore).2 (h p op hp)

/-! ## A run in which it is no map -/

/-- The address `10.0.0.n`, port 5060. -/
def uac (n : UInt32) : SockaddrIn := ⟨2, 5060, 0x0a000000 + n⟩

/-- Two calls with colliding Call-IDs; the first one ends. -/
def firstEnds : List SessionOp :=
  [.store (ascii "ab") (uac 1) 16, .store (ascii "bA") (uac 2) 16, .delete (ascii "ab")]

/-- The second call is stored again, in front of its first slot, and ends. -/
def secondMoves : List SessionOp :=
  firstEnds ++ [.store (ascii "bA") (uac 3) 16, .delete (ascii "bA")]

theorem isMap_iff_firstEnds : IsMap OpenSips.maxSessions firstEnds ↔
    AllSteps (SessionOp.perform OpenSips.maxSessions) (OneSlot OpenSips.maxSessions) .init
      firstEnds :=
  isMap_iff (by decide) (by unfold ValidId; decide +kernel) (by decide +kernel)

/-- **An address that is out of date.**  The second call has ended, and is found with the address of
its first store. -/
theorem not_isMap_reused :
    (∀ op ∈ secondMoves, ValidId op.callId) ∧
      AllSteps (SessionOp.perform OpenSips.maxSessions) (HasRoom OpenSips.maxSessions) .init
        secondMoves ∧
      ¬ IsMap OpenSips.maxSessions secondMoves := by
  refine ⟨by unfold ValidId; decide +kernel, by decide +kernel, fun h => ?_⟩
  have hfound := h secondMoves List.prefix_rfl (ascii "bA") (by unfold ValidId; decide +kernel)
  revert hfound
  decide +kernel

end Docker

end VoipBackend
