import VoipBackend.Lib.LateWrites
import VoipBackend.Wire.SpaceId

/-!
# The space behind the cache

`tarantool_set`, `tarantool_get` and `tarantool_remove` send a `REPLACE`, a `SELECT` and a `DELETE` on
the space 512, whose tuples have the seven fields of `schema.lua`, the last one of any type.  A packet
is read with nothing taken on trust (`keyOpOf`).

* `keyOpOf_pack` — the packet of a request is the operation that was meant.
* `tarantoolGet_answer` — what `tarantool_get` makes of the answer to a `SELECT`.
-/

namespace VoipBackend

open Library MsgPack

namespace OpenSips

open Msgpuck

/-! ## Tuples -/

/-- A tuple of `rtpe_calls`, without its key. -/
structure CallTuple where
  nodeId : Bytes
  state : Bytes
  createdAt : ℕ
  updatedAt : ℕ
  expiresAt : ℕ
  payload : Value

/-- The fields of a tuple. -/
def CallTuple.fields (callId : Bytes) (t : CallTuple) : List Value :=
  callFields callId t.nodeId t.state t.createdAt t.updatedAt t.expiresAt t.payload

/-- The space, by its primary key. -/
abbrev CallSpace := Bytes → Option CallTuple

/-- A tuple that the format of the space admits. -/
def tupleOf : List Value → Option (Bytes × CallTuple)
  | [.str callId, .str nodeId, .str state, .int createdAt, .int updatedAt, .int expiresAt, payload] =>
      if 0 ≤ createdAt ∧ 0 ≤ updatedAt ∧ 0 ≤ expiresAt then
        some (callId, ⟨nodeId, state, createdAt.toNat, updatedAt.toNat, expiresAt.toNat, payload⟩)
      else none
  | _ => none

/-! ## Packets -/

/-- What a request of this type with this body does to the space: a `SELECT` of one key of the primary
index, a `REPLACE` or a `DELETE`. -/
def keyOpOfBody (type : ℤ) (body : List (Value × Value)) : Option (KeyOp Bytes CallTuple) :=
  if type = iprotoSelect then
    match fieldOf iprotoIndexId body, fieldOf iprotoLimit body, fieldOf iprotoOffset body,
        fieldOf iprotoIterator body, fieldOf iprotoKey body with
    | some (.int 0), some (.int 1), some (.int 0), some (.int 0), some (.array [.str key]) =>
        some (.read key)
    | _, _, _, _, _ => none
  else if type = iprotoReplace then
    match fieldOf iprotoTuple body with
    | some (.array fields) => (tupleOf fields).map fun t => .put t.1 t.2
    | _ => none
  else if type = iprotoDelete then
    match fieldOf iprotoIndexId body, fieldOf iprotoKey body with
    | some (.int 0), some (.array [.str key]) => some (.erase key)
    | _, _ => none
  else none

/-- The operation on the space 512 that a packet asks for. -/
def keyOpOf (packet : Bytes) : Option (KeyOp Bytes CallTuple) :=
  match readPacket packet with
  | some (header, body) =>
      match fieldOf iprotoRequestType header, fieldOf iprotoSpaceId body with
      | some (.int type), some (.int 512) => keyOpOfBody type body
      | _, _ => none
  | none => none

/-- The tuple of `tarantool_set`, made at the time `now`. -/
def setTuple (val : Bytes) (expires now : ℤ) : CallTuple where
  nodeId := ascii "opensips"
  state := ascii "active"
  createdAt := toU64 now
  updatedAt := toU64 now
  expiresAt := toU64 (if 0 < expires then now + expires else now + 3600)
  payload := .str val

/-- The operation a request is meant to be; the others run code on the server. -/
def Request.keyOp (now : ℤ) : Request → Option (KeyOp Bytes CallTuple)
  | .get attr => some (.read attr)
  | .set attr val expires => some (.put attr (setTuple val expires now))
  | .remove attr => some (.erase attr)
  | .rawQuery _ => none
  | .callProc _ _ => none

/-- **The packet of a request is the operation that was meant.** -/
theorem keyOpOf_pack (req : Request) {syncId : ℕ} (now : ℤ) (hsync : syncId < 2 ^ 64)
    (hlen : (req.pack syncId 512 now).length < 2 ^ 32 + 5) :
    keyOpOf (req.pack syncId 512 now) = req.keyOp now := by
  have hread := readPacket_pack req now hsync (by norm_num) hlen
  have htype : fieldOf iprotoRequestType (requestMaps req.type syncId (req.body 512 now)).1 =
      some (.int req.type) := by
    simp [requestMaps, fieldOf]
  have hbody : (requestMaps req.type syncId (req.body 512 now)).2 = req.body 512 now := rfl
  rw [keyOpOf, hread]
  simp only [htype, hbody]
  cases req with
  | get attr =>
    simp [Request.body, Request.type, Request.keyOp, fieldOf, keyOpOfBody, iprotoSpaceId,
      iprotoIndexId, iprotoLimit, iprotoOffset, iprotoIterator, iprotoKey]
  | set attr val expires =>
    have htime : ∀ x : ℤ, 0 ≤ x % 2 ^ 64 := fun x => Int.emod_nonneg _ (by norm_num)
    have htuple : tupleOf [.str attr, .str (ascii "opensips"), .str (ascii "active"),
        .int (now % 2 ^ 64), .int (now % 2 ^ 64),
        .int ((if 0 < expires then now + expires else now + 3600) % 2 ^ 64), .str val] =
          some (attr, setTuple val expires now) := by
      rw [tupleOf, if_pos ⟨htime _, htime _, htime _⟩]
      rfl
    have hfield : fieldOf iprotoTuple ((Request.set attr val expires).body 512 now) =
        some (.array [.str attr, .str (ascii "opensips"), .str (ascii "active"),
          .int (now % 2 ^ 64), .int (now % 2 ^ 64),
          .int ((if 0 < expires then now + expires else now + 3600) % 2 ^ 64), .str val]) := by
      simp [Request.body, fieldOf, iprotoSpaceId, iprotoTuple]
    have hspace : fieldOf iprotoSpaceId ((Request.set attr val expires).body 512 now) =
        some (.int 512) := by
      simp [Request.body, fieldOf]
    have hkind : ((iprotoReplace : ℕ) : ℤ) ≠ iprotoSelect := by decide
    rw [hspace]
    simp only [Request.type, keyOpOfBody, if_neg hkind, if_true, hfield, htuple, Option.map_some]
    rfl
  | remove attr =>
    have hselect : ((iprotoDelete : ℕ) : ℤ) ≠ iprotoSelect := by decide
    have hreplace : ((iprotoDelete : ℕ) : ℤ) ≠ iprotoReplace := by decide
    simp [Request.body, Request.type, Request.keyOp, fieldOf, keyOpOfBody, hselect, hreplace,
      iprotoSpaceId, iprotoIndexId, iprotoKey]
  | rawQuery query =>
    simp [Request.body, Request.keyOp, fieldOf, iprotoSpaceId, iprotoExpr, iprotoTuple]
  | callProc proc args =>
    simp [Request.body, Request.keyOp, fieldOf, iprotoSpaceId, iprotoFunctionName, iprotoTuple]

/-! ## The answer to a `SELECT` -/

/-- The answer without a tuple. -/
structure NothingSelected (syncId : ℕ) where
  head : OkHeader syncId
  data : Item
  empty : data.elements = some []
  key : Item
  isData : key.number = some iprotoData
  body : Item
  pairs : body.pairs = some [(key, data)]
  valid : body.Valid

/-- The frame of the answer. -/
def NothingSelected.frame {syncId : ℕ} (a : NothingSelected syncId) : Bytes :=
  a.head.header.bytes ++ a.body.bytes

theorem tarantoolGet_nothing {syncId : ℕ} (a : NothingSelected syncId) (pkgMalloc : ℕ → Bool) :
    tarantoolGet pkgMalloc syncId a.frame = some (-2, none) := by
  have hentries := a.valid.pairs a.pairs
  rw [EntriesValid] at hentries
  obtain ⟨⟨hkey, hdata⟩, -⟩ := hentries
  have hmap := mpDecodeMap_pairs a.valid a.pairs []
  rw [List.append_nil, List.append_nil, entriesBytes_cons, entriesBytes_nil] at hmap
  have hbody : getLoop pkgMalloc 1 none (a.key.bytes ++ (a.data.bytes ++ [])) = some none := by
    rw [getLoop, mpDecodeUint_number hkey a.isData]
    simp only [Option.bind_eq_bind, Option.bind_some, if_true]
    rw [mpDecodeArray_elements hdata a.empty, Option.bind_some]
    rfl
  rw [tarantoolGet, NothingSelected.frame, checkIprotoStatus_ok a.head]
  simp only [Option.bind_eq_bind, Option.bind_some, lt_irrefl, if_false]
  rw [decodeGet_ok, hmap, Option.bind_some]
  simp only [List.length_singleton]
  rw [hbody]
  rfl

/-- A right answer to a `SELECT` of the key. -/
def AnswersSelect (space : CallSpace) (attr : Bytes) (syncId : ℕ) (frame : Bytes) : Prop :=
  match space attr with
  | some t => ∃ a : Selected syncId (t.fields attr), frame = a.frame
  | none => ∃ a : NothingSelected syncId, frame = a.frame

/-- What `tarantool_get` is to return: the payload as it is read, if there is a tuple and memory. -/
def found (pkgMalloc : ℕ → Bool) : Option CallTuple → ℤ × Option Bytes
  | some t => if pkgMalloc 0 then (0, some (readAs t.payload)) else (-2, none)
  | none => (-2, none)

/-- **What `tarantool_get` makes of a right answer.** -/
theorem tarantoolGet_answer {space : CallSpace} {attr frame : Bytes} {syncId : ℕ}
    (h : AnswersSelect space attr syncId frame) (pkgMalloc : ℕ → Bool) :
    tarantoolGet pkgMalloc syncId frame = some (found pkgMalloc (space attr)) := by
  unfold AnswersSelect at h
  cases htuple : space attr with
  | some t =>
    rw [htuple] at h
    obtain ⟨a, rfl⟩ := h
    exact tarantoolGet_selected a pkgMalloc
  | none =>
    rw [htuple] at h
    obtain ⟨a, rfl⟩ := h
    exact tarantoolGet_nothing a pkgMalloc

end OpenSips

end VoipBackend
