import VoipBackend.Wire.Get
import VoipBackend.Wire.Sizes

/-!
# The id of a space

A new handle asks the server for the id of its space.  The answer is a header map and a body map,
and the id is in the body; `resolve_space_id` reads the first map only.  It finds no id there, and
takes 512 for it (`resolveSpaceId_iff`).
-/

namespace VoipBackend

open Library MsgPack

namespace OpenSips

open Msgpuck

/-! ## The answer to the `EVAL` -/

/-- The answer with the id of a space.  The keys of its header are numbers, and `IPROTO_DATA`, a key
of bodies, is none of them. -/
structure Resolved (syncId : ℕ) where
  head : OkHeader syncId
  noData : ∀ e ∈ head.header.entries, e.1.number ≠ some iprotoData
  id : ℕ
  positive : 0 < id
  small : id < 2 ^ 32
  item : Item
  isId : item.number = some id
  data : Item
  single : data.elements = some [item]
  key : Item
  isData : key.number = some iprotoData
  body : Item
  pairs : body.pairs = some [(key, data)]
  valid : body.Valid
  framed : (head.header.bytes ++ body.bytes).length < 2 ^ 32

namespace Resolved

variable {syncId : ℕ}

/-- What is in the frame. -/
def bytes (a : Resolved syncId) : Bytes := a.head.header.bytes ++ a.body.bytes

/-- The limit of `tnt_read_frame`. -/
def Short (a : Resolved syncId) : Prop := a.bytes.length ≤ 16 * 1024 * 1024

instance (a : Resolved syncId) : Decidable a.Short := inferInstanceAs (Decidable (_ ≤ _))

/-- This answer arrives, and then anything. -/
def arriving (a : Resolved syncId) (net : Net) (more : Bytes) : Net :=
  { net with resolve := replying a.bytes more }

end Resolved

/-! ## What is read -/

/-- A frame that is not too long is read. -/
theorem tntReadFrame_replying {body : Bytes} (hlen : body.length < 2 ^ 32) (more : Bytes)
    (cap : ℕ) : tntReadFrame (replying body more) cap =
      if body.length = 0 ∨ 16 * 1024 * 1024 < body.length then none else some body := by
  have hfive := recvAll_header body more
  have hbody := recvAll_body body more
  have hcount := ofBigEndian_header hlen
  rw [List.drop_succ_cons, List.drop_zero] at hcount
  unfold tntReadFrame replying
  rw [hfive]
  simp only [Option.bind_eq_bind, Option.bind_some, List.head?_cons, ne_eq, not_true_eq_false,
    if_false, List.drop_succ_cons, List.drop_zero, hcount, hbody, reduceCtorEq, and_false]
  rfl

/-- The loop goes over the header and leaves the id as it was. -/
theorem resolveLoop_header {entries : List (Item × Item)} (hvalid : EntriesValid entries)
    (hnumeric : RtpEngine.Numeric entries) (hkeys : ∀ e ∈ entries, e.1.number ≠ some iprotoData)
    (spaceId : ℕ) (rest : Bytes) :
    resolveLoop spaceId entries.length (entriesBytes entries ++ rest) = some spaceId := by
  induction entries with
  | nil => rfl
  | cons e entries ih =>
    obtain ⟨key, val⟩ := e
    rw [EntriesValid] at hvalid
    obtain ⟨⟨hkey, hval⟩, hvalid⟩ := hvalid
    obtain ⟨⟨k, v, hk, hv⟩, hnumeric⟩ := List.forall_mem_cons.1 hnumeric
    obtain ⟨hother, hkeys⟩ := List.forall_mem_cons.1 hkeys
    have hne : k ≠ iprotoData := fun heq => hother (by rw [hk, heq])
    rw [entriesBytes_cons_append, List.length_cons, resolveLoop, mpDecodeUint_number hkey hk]
    simp only [Option.bind_eq_bind, Option.bind_some, if_neg hne, mpNext_number hval hv]
    exact ih hvalid hnumeric hkeys

theorem resolveSpaceId_unread {net : Net} (tcon : Cluster) (syncId spaceId : ℕ)
    (hread : tntReadFrame net.resolve 1024 = none) :
    (resolveSpaceId tcon syncId net spaceId).2 = spaceId := by
  unfold resolveSpaceId
  simp only
  split_ifs
  · rfl
  · rw [hread]

theorem resolveSpaceId_read {net : Net} (tcon : Cluster) (syncId : ℕ) {spaceId id mapSize : ℕ}
    {resp p : Bytes} (htakes : net.resolve.takes = true)
    (hread : tntReadFrame net.resolve 1024 = some resp)
    (hmap : mpDecodeMap resp = some (mapSize, p))
    (hloop : resolveLoop spaceId mapSize p = some id) :
    (resolveSpaceId tcon syncId net spaceId).2 = if id = 0 then 512 else id := by
  unfold resolveSpaceId
  simp only
  rw [htakes, if_neg (by decide), hread]
  simp only
  rw [hmap, Option.bind_some]
  simp only
  rw [hloop, Option.getD_some]

/-- Every space gets the same id, if the answer is short enough to be read. -/
theorem resolveSpaceId_arriving {syncId : ℕ} (a : Resolved syncId) (tcon : Cluster) (net : Net)
    (more : Bytes) :
    (resolveSpaceId tcon syncId (a.arriving net more) 0).2 = if a.Short then 512 else 0 := by
  have hread : tntReadFrame (a.arriving net more).resolve 1024 =
      if a.bytes.length = 0 ∨ 16 * 1024 * 1024 < a.bytes.length then none else some a.bytes :=
    tntReadFrame_replying a.framed more 1024
  have hne : a.bytes.length ≠ 0 := by simp [Resolved.bytes, Header.bytes, Item.bytes]
  by_cases hshort : a.Short
  · have hrange : ¬ (a.bytes.length = 0 ∨ 16 * 1024 * 1024 < a.bytes.length) := by
      rintro (hzero | hlong)
      · exact hne hzero
      · exact absurd hshort (not_le.2 hlong)
    have hloop := resolveLoop_header a.head.header.entriesValid a.head.numeric a.noData 0
      a.body.bytes
    rw [if_neg hrange] at hread
    rw [if_pos hshort]
    exact resolveSpaceId_read tcon syncId rfl hread (mpDecodeMap_header _ _) hloop
  · rw [if_pos (Or.inr (not_le.1 hshort))] at hread
    rw [if_neg hshort]
    exact resolveSpaceId_unread tcon syncId 0 hread

/-- **When the id is the one in the answer.**  The answer is at most 16 MiB long, and the id is the
512 that is taken for every space. -/
theorem resolveSpaceId_iff {syncId : ℕ} (a : Resolved syncId) (tcon : Cluster) (net : Net)
    (more : Bytes) : (resolveSpaceId tcon syncId (a.arriving net more) 0).2 = a.id ↔
      a.id = 512 ∧ a.Short := by
  rw [resolveSpaceId_arriving]
  have hpos := a.positive
  by_cases hshort : a.Short
  · rw [if_pos hshort, and_iff_left hshort]
    exact eq_comm
  · rw [if_neg hshort]
    refine iff_of_false (by omega) ?_
    rintro ⟨-, h⟩
    exact hshort h

/-- The body with the id 513. -/
def nextBody : Item := .fixmap [(.fixint iprotoData, .fixarray [.uint .w16 513])]

theorem valid_nextBody : nextBody.Valid := by
  simp [nextBody, Item.Valid, EntriesValid, ItemsValid, NumWidth.bytes, iprotoData]

theorem ok_okHeader (sync : UInt64) : (RtpEngine.okHeader sync).Ok :=
  ⟨_, List.mem_cons_self, rfl, rfl⟩

theorem synced_okHeader (sync : UInt64) : ∀ e ∈ (RtpEngine.okHeader sync).entries,
    e.1.value = .int iprotoSync → e.2.value = .int sync.toNat := by
  simp [RtpEngine.okHeader, Item.value, iprotoSync]

theorem noData_okHeader (sync : UInt64) : ∀ e ∈ (RtpEngine.okHeader sync).entries,
    e.1.number ≠ some iprotoData := by
  simp [RtpEngine.okHeader, Item.number, iprotoData]

theorem length_next (sync : UInt64) :
    ((RtpEngine.okHeader sync).bytes ++ nextBody.bytes).length = 29 := by
  simp [RtpEngine.okHeader, nextBody, Header.bytes, mapItem, Item.bytes, Item.payload, itemsBytes,
    entriesBytes, NumWidth.bytes]

/-- The answer for the space 513. -/
def Resolved.next (sync : UInt64) : Resolved sync.toNat where
  head := ⟨RtpEngine.okHeader sync, RtpEngine.numeric_okHeader sync, ok_okHeader sync,
    synced_okHeader sync⟩
  noData := noData_okHeader sync
  id := 513
  positive := by decide
  small := by decide
  item := .uint .w16 513
  isId := rfl
  data := .fixarray [.uint .w16 513]
  single := rfl
  key := .fixint iprotoData
  isData := rfl
  body := nextBody
  pairs := rfl
  valid := valid_nextBody
  framed := by
    rw [length_next]
    decide

/-- The requests for the space 513 go to the space 512. -/
theorem not_resolveSpaceId_next :
    ¬ ∀ (syncId : ℕ) (a : Resolved syncId) (tcon : Cluster) (net : Net) (more : Bytes),
      (resolveSpaceId tcon syncId (a.arriving net more) 0).2 = a.id := by
  intro h
  have hnext := h _ (.next 1) ⟨[], [], ascii "dialogs", 10, 3⟩ .calm []
  rw [resolveSpaceId_arriving, if_pos (by decide)] at hnext
  exact absurd hnext (by decide)

/-! ## The connection -/

/-- A connection that has been established leaves what `resolve_space_id` found to the requests, and
an id the handle already has as it is. -/
theorem spaceId_of_completed {tcon : Cluster} {net : Net} {c : Conn}
    (h : (tntConnectSingle tcon net c).1.exit = .completed) :
    (tntConnectSingle tcon net c).2.2 =
      if net.spaceId = 0 then
        (resolveSpaceId tcon (c.syncCounter + 1).toNat net net.spaceId).2
      else net.spaceId := by
  have hsync : c.rearm.syncCounter = c.syncCounter := by
    unfold Conn.rearm
    split_ifs <;> rfl
  unfold tntConnectSingle at h ⊢
  simp only at h ⊢
  by_cases hcool : c.state = .disabled ∧ net.dial.now < c.disabledUntil
  · rw [if_pos hcool] at h
    cases h
  rw [if_neg hcool] at h ⊢
  by_cases hsocket : net.dial.fd < 0
  · rw [if_pos hsocket] at h
    cases h
  rw [if_neg hsocket] at h ⊢
  by_cases hresolves : net.dial.resolves = false
  · rw [if_pos hresolves] at h
    cases h
  rw [if_neg hresolves] at h ⊢
  by_cases hconnects : net.dial.connects = false
  · rw [if_pos hconnects] at h
    cases h
  rw [if_neg hconnects] at h ⊢
  cases hgreeting : recvAll net.dial.greeting tntGreetingSize with
  | none =>
    rw [hgreeting] at h
    cases h
  | some g =>
    rw [hgreeting] at h
    simp only at h ⊢
    split_ifs at h ⊢ with hauth hzero
    · simp only [hsync]
    · rfl

/-- The requests of a new connection go to the space 512, whichever the handle is for. -/
theorem spaceId_arriving {tcon : Cluster} {net : Net} {c : Conn}
    (a : Resolved (c.syncCounter + 1).toNat) (more : Bytes) (hnew : net.spaceId = 0)
    (h : (tntConnectSingle tcon (a.arriving net more) c).1.exit = .completed) :
    (tntConnectSingle tcon (a.arriving net more) c).2.2 = if a.Short then 512 else 0 := by
  have hunset : (a.arriving net more).spaceId = 0 := hnew
  rw [spaceId_of_completed h, if_pos hunset, hunset]
  exact resolveSpaceId_arriving a tcon net more

end OpenSips

end VoipBackend
