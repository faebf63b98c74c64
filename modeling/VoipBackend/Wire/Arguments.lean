import VoipBackend.Lib.Pack
import VoipBackend.Wire.Kamailio
import VoipBackend.Wire.Packets

/-!
# Arguments that get lost

`tnt_exec_call` and `tnt_exec_eval` of the Kamailio driver take the arguments of a procedure as a
text, "JSON or string parameters array".  A text that starts with a bracket, which is how a JSON
array starts, is not passed on: the request has no arguments at all (`argumentsKept_iff`).
-/

namespace VoipBackend

open Library MsgPack

namespace Kamailio

/-! ## What a server finds in a request -/

/-- The arguments in a packet. -/
def argumentsOf (packet : Bytes) : Option (List Value) :=
  match mapsOf packet with
  | some (_, body) =>
      match fieldOf iprotoTuple body with
      | some (.array args) => some args
      | _ => none
  | none => none

/-- The body of a request: what is called, under its key, and the arguments. -/
def requestBody (key : ℕ) (name : Bytes) (paramsJson : Option Bytes) : Value :=
  .map [(.int key, .str name), (.int iprotoTuple, args paramsJson)]

variable {core : Core}

theorem representable_requestHeader {requestType syncId : ℕ} (htype : requestType < 128)
    (hsync : syncId < 2 ^ 64) : (requestHeader requestType syncId).Representable := by
  simp only [requestHeader, Value.Representable, EntriesRepresentable, iprotoRequestType,
    iprotoSync, List.length_cons, List.length_nil]
  exact ⟨by norm_num, ⟨by norm_num, by omega⟩, ⟨by norm_num, by omega⟩, trivial⟩

theorem representable_args {text : Bytes} (h : text.length < 2 ^ 31) :
    (args (some text)).Representable := by
  have hlen : text.length < 2 ^ 32 := by omega
  unfold args
  split
  · next heq =>
    cases heq
    split_ifs <;> simp only [Value.Representable, ValuesRepresentable, List.length_singleton,
      List.length_nil]
    · exact ⟨by norm_num, hlen, trivial⟩
    · exact ⟨by norm_num, trivial⟩
  · exact ⟨by norm_num, trivial⟩

theorem representable_requestBody {key : ℕ} (hkey : key < 128) {name text : Bytes}
    (hname : name.length < 2 ^ 31) (htext : text.length < 2 ^ 31) :
    (requestBody key name (some text)).Representable := by
  have hargs := representable_args htext
  have hname' : name.length < 2 ^ 32 := by omega
  simp only [requestBody, Value.Representable, EntriesRepresentable, iprotoTuple,
    List.length_cons, List.length_nil]
  exact ⟨by norm_num, ⟨by omega, hname'⟩, ⟨by norm_num, hargs⟩, trivial⟩

/-- Packets with one header differ if their bodies do. -/
theorem packet_inj (hpack : Packs core.pack) {header body body' : Value}
    (hbody : body.Representable) (hbody' : body'.Representable) :
    packet core header body = packet core header body' ↔ body = body' := by
  constructor
  · intro h
    have hdrop := congrArg (List.drop 5) h
    have hframe : ∀ payload : Bytes, (frame payload).drop 5 = payload := fun payload =>
      List.drop_left' (by simp)
    rw [packet, packet, hframe, hframe, List.append_cancel_left_eq] at hdrop
    exact pack_injective hpack hbody hbody' hdrop
  · rintro rfl
    rfl

/-- A server finds the two maps. -/
theorem mapsOf_packet (hpack : Packs core.pack) {requestType syncId key : ℕ}
    (htype : requestType < 128) (hsync : syncId < 2 ^ 64) (hkey : key < 128) {name text : Bytes}
    (hname : name.length < 2 ^ 31) (htext : text.length < 2 ^ 31) :
    mapsOf (packet core (requestHeader requestType syncId) (requestBody key name (some text))) =
      some ([(.int iprotoRequestType, .int requestType), (.int iprotoSync, .int syncId)],
        [(.int key, .str name), (.int iprotoTuple, args (some text))]) := by
  have hframe : ∀ payload : Bytes, (frame payload).drop 5 = payload := fun payload =>
    List.drop_left' (by simp)
  have hbody := unpack_pack hpack (representable_requestBody hkey hname htext) []
  rw [List.append_nil, requestBody] at hbody
  rw [mapsOf, packet, hframe, unpack_pack hpack (representable_requestHeader htype hsync)]
  simp only [requestHeader, requestBody, hbody]

theorem argumentsOf_packet (hpack : Packs core.pack) {requestType syncId key : ℕ}
    (htype : requestType < 128) (hsync : syncId < 2 ^ 64) (hkey : key < 128)
    (hne : key ≠ iprotoTuple) {name text : Bytes} (hname : name.length < 2 ^ 31)
    (htext : text.length < 2 ^ 31) {vs : List Value} (hargs : args (some text) = .array vs) :
    argumentsOf (packet core (requestHeader requestType syncId) (requestBody key name (some text))) =
      some vs := by
  rw [argumentsOf, mapsOf_packet hpack htype hsync hkey hname htext]
  simp [fieldOf, hne, hargs]

/-- A server finds the procedure that is called, with the arguments. -/
theorem readCall_packet (hpack : Packs core.pack) {syncId : ℕ} (hsync : syncId < 2 ^ 64)
    {name text : Bytes} (hname : name.length < 2 ^ 31) (htext : text.length < 2 ^ 31)
    {vs : List Value} (hargs : args (some text) = .array vs) :
    readCall ((Request.call name (some text)).pack core syncId) = some (name, vs) := by
  have hmaps : mapsOf ((Request.call name (some text)).pack core syncId) = _ :=
    mapsOf_packet hpack (by decide) hsync (by decide) hname htext
  rw [readCall, hmaps, hargs, Option.bind_some, calledIn_call (Or.inr rfl)]

/-! ## Texts -/

/-- The text starts with a bracket. -/
def Bracketed (text : Bytes) : Prop := text.head? = some 0x5b

instance (text : Bytes) : Decidable (Bracketed text) := inferInstanceAs (Decidable (_ = _))

theorem args_bracketed {text : Bytes} (h : Bracketed text) : args (some text) = .array [] := by
  cases text with
  | nil => rfl
  | cons c text =>
    have hc : c = 0x5b := Option.some.inj h
    rw [hc]
    rfl

theorem args_not_bracketed {text : Bytes} (hne : text ≠ []) (h : ¬ Bracketed text) :
    args (some text) = .array [.str text] := by
  cases text with
  | nil => exact absurd rfl hne
  | cons c text => exact if_pos fun hc => h (by rw [hc]; rfl)

theorem args_inj {a b : Bytes} (ha : a ≠ []) (hb : b ≠ []) (hab : a ≠ b) :
    args (some a) = args (some b) ↔ Bracketed a ∧ Bracketed b := by
  by_cases hbracket : Bracketed a <;> by_cases hbracket' : Bracketed b
  · simp [args_bracketed hbracket, args_bracketed hbracket', hbracket, hbracket']
  · simp [args_bracketed hbracket, args_not_bracketed hb hbracket', hbracket']
  · simp [args_not_bracketed ha hbracket, args_bracketed hbracket', hbracket]
  · simp [args_not_bracketed ha hbracket, args_not_bracketed hb hbracket', hbracket, hab]

/-! ## Is an argument lost? -/

/-- Requests with these texts differ, for a procedure and for an expression. -/
def ToldApart (core : Core) (syncId : ℕ) (name a b : Bytes) : Prop :=
  (Request.call name (some a)).pack core syncId ≠ (Request.call name (some b)).pack core syncId ∧
    (Request.eval name (some a)).pack core syncId ≠ (Request.eval name (some b)).pack core syncId

/-- A request with this text has arguments. -/
def PassedOn (core : Core) (syncId : ℕ) (name text : Bytes) : Prop :=
  argumentsOf ((Request.call name (some text)).pack core syncId) ≠ some [] ∧
    argumentsOf ((Request.eval name (some text)).pack core syncId) ≠ some []

theorem toldApart_iff (hpack : Packs core.pack) (syncId : ℕ) {name a b : Bytes}
    (hname : name.length < 2 ^ 31) (halen : a.length < 2 ^ 31) (hblen : b.length < 2 ^ 31)
    (ha : a ≠ []) (hb : b ≠ []) (hab : a ≠ b) :
    ToldApart core syncId name a b ↔ ¬ (Bracketed a ∧ Bracketed b) := by
  have hbody : ∀ key, requestBody key name (some a) = requestBody key name (some b) ↔
      Bracketed a ∧ Bracketed b := by
    intro key
    rw [← args_inj ha hb hab]
    simp [requestBody]
  have hdiffer : ∀ requestType key, key < 128 →
      (packet core (requestHeader requestType syncId) (requestBody key name (some a)) ≠
        packet core (requestHeader requestType syncId) (requestBody key name (some b)) ↔
        ¬ (Bracketed a ∧ Bracketed b)) := by
    intro requestType key hkey
    rw [ne_eq, packet_inj hpack (representable_requestBody hkey hname halen)
      (representable_requestBody hkey hname hblen), hbody]
  have hcall := hdiffer tntIprotoCall iprotoFunctionName (by decide)
  have heval := hdiffer iprotoEval iprotoExpr (by decide)
  exact ⟨fun h => hcall.1 h.1, fun h => ⟨hcall.2 h, heval.2 h⟩⟩

theorem passedOn_iff (hpack : Packs core.pack) {syncId : ℕ} (hsync : syncId < 2 ^ 64)
    {name text : Bytes} (hname : name.length < 2 ^ 31) (hlen : text.length < 2 ^ 31)
    (hne : text ≠ []) : PassedOn core syncId name text ↔ ¬ Bracketed text := by
  have hread : ∀ {vs}, args (some text) = .array vs →
      argumentsOf ((Request.call name (some text)).pack core syncId) = some vs ∧
        argumentsOf ((Request.eval name (some text)).pack core syncId) = some vs := fun h =>
    ⟨argumentsOf_packet hpack (by decide) hsync (by decide) (by decide) hname hlen h,
      argumentsOf_packet hpack (by decide) hsync (by decide) (by decide) hname hlen h⟩
  by_cases hbracket : Bracketed text
  · obtain ⟨hcall, heval⟩ := hread (args_bracketed hbracket)
    simp [PassedOn, hcall, heval, hbracket]
  · obtain ⟨hcall, heval⟩ := hread (args_not_bracketed hne hbracket)
    simp [PassedOn, hcall, heval, hbracket]

end Kamailio

open Kamailio

/-- **Is an argument lost?**  Two requests are told apart unless both texts start with a bracket, and
a request has arguments unless its text does. -/
theorem argumentsKept_iff {core : Core} (hpack : Packs core.pack) {syncId : ℕ}
    (hsync : syncId < 2 ^ 64) {name a b : Bytes} (hname : name.length < 2 ^ 31)
    (halen : a.length < 2 ^ 31) (hblen : b.length < 2 ^ 31) (ha : a ≠ []) (hb : b ≠ [])
    (hab : a ≠ b) :
    (ToldApart core syncId name a b ↔ ¬ (Bracketed a ∧ Bracketed b)) ∧
      (PassedOn core syncId name a ↔ ¬ Bracketed a) :=
  ⟨toldApart_iff hpack syncId hname halen hblen ha hb hab,
    passedOn_iff hpack hsync hname halen ha⟩

/-- A msgpack library that writes the shortest encodings. -/
def packingCore : Core where
  base64Dec _ _ := []
  computeSha1Raw s := s
  pack := packShortest
  unpackNext := unpack
  viaU64
    | .int z => (z % 2 ^ 64).toNat
    | _ => 0

/-- A plain text is told apart from a JSON array. -/
theorem toldApart_plain :
    ToldApart packingCore 1 (ascii "f") (ascii "1001") (ascii "[1001]") :=
  ((argumentsKept_iff packs_packShortest (by norm_num) (by decide) (by decide) (by decide)
    (by decide) (by decide) (by decide)).1).2 (by decide)

/-- The arrays `[1]` and `[2]` make the same request, one without arguments. -/
theorem not_argumentsKept_arrays :
    ¬ ∀ (core : Core), Packs core.pack → ∀ (syncId : ℕ), syncId < 2 ^ 64 →
      ∀ name a b : Bytes, name.length < 2 ^ 31 → a.length < 2 ^ 31 → b.length < 2 ^ 31 →
        a ≠ [] → b ≠ [] → a ≠ b → ToldApart core syncId name a b ∧ PassedOn core syncId name a := by
  intro h
  have hboth := h packingCore packs_packShortest 1 (by norm_num) (ascii "f") (ascii "[1]")
    (ascii "[2]") (by decide) (by decide) (by decide) (by decide) (by decide) (by decide)
  exact (toldApart_iff packs_packShortest 1 (by decide) (by decide) (by decide) (by decide)
    (by decide) (by decide)).1 hboth.1 (by decide)

end VoipBackend
