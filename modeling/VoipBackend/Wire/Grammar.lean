import VoipBackend.Wire.Replies
import VoipBackend.Wire.Skipping
import VoipBackend.Wire.Tags

/-!
# The grammar of the frames that are read

What OpenSIPS and RTPEngine call for in a frame, as a grammar (`Rule`): the values that are skipped,
and a production for everything that may be due.  Nothing here says how the frame is read; that
the drivers stay inside exactly the frames of this grammar is `staysInside_iff`.
-/

namespace VoipBackend

open Library

namespace Msgpuck

/-! ## Values that are skipped -/

/-- What belongs to the tag of a value. -/
inductive ValueKind where
  /-- So many bytes, which are not looked at, and so many values. -/
  | plain (bytes values : ℕ)
  /-- A length of so many bytes, and a string. -/
  | blob (width : ℕ)
  /-- A count of so many bytes, and the values. -/
  | array (width : ℕ)
  /-- A count of so many bytes, and the keys and values. -/
  | map (width : ℕ)

/-- The table of `mp_next`: floating-point numbers and extensions are missing in it. -/
def valueKind (c : UInt8) : ValueKind :=
  if c ≤ 0x7f ∨ 0xe0 ≤ c then .plain 0 0
  else if c &&& 0xe0 = 0xa0 then .plain (c &&& 0x1f).toNat 0
  else if c &&& 0xf0 = 0x90 then .plain 0 (c &&& 0x0f).toNat
  else if c &&& 0xf0 = 0x80 then .plain 0 ((c &&& 0x0f).toNat * 2)
  else if c = 0xcc ∨ c = 0xd0 then .plain 1 0
  else if c = 0xcd ∨ c = 0xd1 then .plain 2 0
  else if c = 0xce ∨ c = 0xd2 then .plain 4 0
  else if c = 0xcf ∨ c = 0xd3 then .plain 8 0
  else if c = 0xd9 ∨ c = 0xc4 then .blob 1
  else if c = 0xda ∨ c = 0xc5 then .blob 2
  else if c = 0xdb ∨ c = 0xc6 then .blob 4
  else if c = 0xdc then .array 2
  else if c = 0xdd then .array 4
  else if c = 0xde then .map 2
  else if c = 0xdf then .map 4
  else .plain 0 0

/-- A value begins here: how many values belong to it, and what is behind its own bytes.  These
are skipped, so that they need not be there; a length and a count need to.  Both are 32-bit
numbers, also with what is added to them. -/
inductive Leads : Bytes → ℕ → Bytes → Prop
  | plain {c : UInt8} {p : Bytes} {bytes values : ℕ} (hkind : valueKind c = .plain bytes values) :
      Leads (c :: p) values (p.drop bytes)
  | blob {c : UInt8} {s p : Bytes} (hkind : valueKind c = .blob s.length) :
      Leads (c :: (s ++ p)) 0 ((s ++ p).drop ((s.length + ofBigEndian s) % 2 ^ 32))
  | array {c : UInt8} {s p : Bytes} (hkind : valueKind c = .array s.length) :
      Leads (c :: (s ++ p)) (ofBigEndian s) p
  | map {c : UInt8} {s p : Bytes} (hkind : valueKind c = .map s.length) :
      Leads (c :: (s ++ p)) (ofBigEndian s * 2 % 2 ^ 32) p

/-- So many values begin at `p`, and `q` is behind them. -/
inductive ValuesAt : ℕ → Bytes → Bytes → Prop
  | none (p : Bytes) : ValuesAt 0 p p
  | next {due count : ℕ} {p q r : Bytes} (hlead : Leads p count q)
      (hrest : ValuesAt (count + due) q r) : ValuesAt (due + 1) p r

theorem Leads.ne_nil {p q : Bytes} {count : ℕ} (h : Leads p count q) : p ≠ [] := by
  cases h <;> exact List.cons_ne_nil _ _

theorem not_valuesAt_nil {due : ℕ} {q : Bytes} : ¬ ValuesAt (due + 1) [] q := by
  intro h
  cases h with
  | next hlead _ => exact hlead.ne_nil rfl

end Msgpuck

open Msgpuck RtpEngine

/-! ## What may be due -/

/-- What may be due in a frame. -/
inductive Due where
  /-- Any number, any value, and a string, all of which is there if one of its length is copied. -/
  | number
  | value
  | string (copied : ℕ → Prop)
  /-- The same, so many times. -/
  | repeated (count : ℕ) (due : Due)
  /-- `check_iproto_status`: the header, and so many entries of it. -/
  | status (wantSync : ℕ)
  | statusEntries (wantSync entries : ℕ)
  /-- `tarantool_get`: the frame from its beginning, the header that is skipped, an entry of it, the
  body, and so many entries of it. -/
  | again (frame : Bytes)
  | header
  | headerEntry
  | getBody (pkgMalloc : ℕ → Bool)
  | getEntries (pkgMalloc : ℕ → Bool) (entries : ℕ)
  /-- `rtpe_tarantool_restore_calls`: the header, so many entries of it behind the sync id that has
  been found, the body, an entry of it, an element of its data, so many calls, so many entries of a
  call behind which so many calls are left, and an entry of a payload.  It is known of a call
  whether a Call-ID has been found. -/
  | restoreHeader (wantSync : ℕ)
  | restoreEntries (wantSync msgSync entries : ℕ)
  | restoreBody
  | bodyEntry
  | dataItem
  | calls (count : ℕ)
  | callEntries (named : Bool) (entries left : ℕ)
  | payloadEntry

/-- What is due of a tuple of this length up to its value, if it is taken to have one. -/
def tupleDue (tupleLen : ℕ) (memory : Bool) : List Due :=
  let text := Due.string fun _ => False
  let val := Due.string fun _ => memory = true
  if 7 ≤ tupleLen then [text, text, text, .number, .number, .number, val]
  else if 2 ≤ tupleLen then [text, val]
  else []

/-- The first of these names that a key is taken for. -/
def nameOf (names : List Bytes) (key : Bytes) : Option Bytes := names.find? (prefixMatch key)

/-- The names in the map of a call. -/
def callNames : List Bytes := [ascii "call_id", ascii "node_id", ascii "payload"]

/-- The names in a payload, and what is due behind them. -/
def payloadTable : List (Bytes × Due) :=
  [(ascii "caller_ip", .string (· < 64)), (ascii "callee_ip", .string (· < 64)),
    (ascii "caller_port", .number), (ascii "callee_port", .number),
    (ascii "srtp_suite", .string (· < 32))]

/-- What is due behind a key of a payload. -/
def payloadDue (key : Bytes) : Due :=
  match payloadTable.find? fun e => prefixMatch key e.1 with
  | some e => e.2
  | none => .value

/-- What the buffer of the Call-ID holds behind this string: something, if the string fits and is
not empty as a C string. -/
def namedBy (named : Bool) (len : ℕ) (s : Bytes) : Bool :=
  if len < 128 then decide (0 < len ∧ s.head? ≠ some 0) else named

/-- **The productions.**  One that has no outcome ends the reading; one that has two goes on in
either way. -/
inductive Rule : Due → Bytes → List (List Due × Bytes) → Prop
  | number {n : ℕ} {p q : Bytes} (h : numberTags.At p n q) : Rule .number p [([], q)]
  | value {p q : Bytes} (h : ValuesAt 1 p q) : Rule .value p [([], q)]
  | string {copied : ℕ → Prop} {len : ℕ} {p q : Bytes} (h : strTags.At p len q)
      (hcopied : copied len → len ≤ q.length) : Rule (.string copied) p [([], q.drop len)]
  | repeatedEnd {due : Due} (p : Bytes) : Rule (.repeated 0 due) p [([], p)]
  | repeated {n : ℕ} {due : Due} (p : Bytes) :
      Rule (.repeated (n + 1) due) p [([due, .repeated n due], p)]
  -- `check_iproto_status`.  It ends at a status or a sync id it does not want, and at the end of
  -- the frame.
  | nothing {want : ℕ} : Rule (.status want) [] []
  | status {want entries : ℕ} {p q : Bytes} (h : mapTags.At p entries q) :
      Rule (.status want) p [([.statusEntries want entries], q)]
  | statusEnd {want : ℕ} (p : Bytes) : Rule (.statusEntries want 0) p [([], p)]
  | statusCut {want n : ℕ} : Rule (.statusEntries want (n + 1)) [] [([], [])]
  | code {want n : ℕ} {p q r : Bytes} (hkey : numberTags.At p iprotoRequestType q)
      (hcode : numberTags.At q iprotoOk r) :
      Rule (.statusEntries want (n + 1)) p [([.statusEntries want n], r)]
  | badCode {want n code : ℕ} {p q r : Bytes} (hkey : numberTags.At p iprotoRequestType q)
      (hcode : numberTags.At q code r) (hbad : code ≠ iprotoOk) :
      Rule (.statusEntries want (n + 1)) p []
  | sync {want n : ℕ} {p q r : Bytes} (hkey : numberTags.At p iprotoSync q)
      (hsync : numberTags.At q want r) :
      Rule (.statusEntries want (n + 1)) p [([.statusEntries want n], r)]
  | badSync {want n sync : ℕ} {p q r : Bytes} (hkey : numberTags.At p iprotoSync q)
      (hsync : numberTags.At q sync r) (hbad : sync ≠ want) :
      Rule (.statusEntries want (n + 1)) p []
  | otherStatus {want n key : ℕ} {p q : Bytes} (hkey : numberTags.At p key q)
      (htype : key ≠ iprotoRequestType) (hsync : key ≠ iprotoSync) :
      Rule (.statusEntries want (n + 1)) p [([.value, .statusEntries want n], q)]
  -- `tarantool_get`.
  | again {frame : Bytes} (p : Bytes) : Rule (.again frame) p [([], frame)]
  | header {entries : ℕ} {p q : Bytes} (h : mapTags.At p entries q) :
      Rule .header p [([.repeated entries .headerEntry], q)]
  | headerEntry {key : ℕ} {p q : Bytes} (h : numberTags.At p key q) :
      Rule .headerEntry p [([.value], q)]
  | getBody {pkgMalloc : ℕ → Bool} {entries : ℕ} {p q : Bytes} (h : mapTags.At p entries q) :
      Rule (.getBody pkgMalloc) p [([.getEntries pkgMalloc entries], q)]
  | getEnd {pkgMalloc : ℕ → Bool} (p : Bytes) : Rule (.getEntries pkgMalloc 0) p [([], p)]
  | noTuple {pkgMalloc : ℕ → Bool} {n : ℕ} {p q r : Bytes} (hkey : numberTags.At p iprotoData q)
      (harr : arrayTags.At q 0 r) :
      Rule (.getEntries pkgMalloc (n + 1)) p [([.getEntries pkgMalloc n], r)]
  | tuple {pkgMalloc : ℕ → Bool} {n arrLen tupleLen : ℕ} {p q r s : Bytes}
      (hkey : numberTags.At p iprotoData q) (harr : arrayTags.At q arrLen r) (hlen : 0 < arrLen)
      (htuple : arrayTags.At r tupleLen s) : Rule (.getEntries pkgMalloc (n + 1)) p
        [(tupleDue tupleLen (pkgMalloc n) ++ [.getEntries pkgMalloc n], s)]
  | otherGet {pkgMalloc : ℕ → Bool} {n key : ℕ} {p q : Bytes} (hkey : numberTags.At p key q)
      (hdata : key ≠ iprotoData) :
      Rule (.getEntries pkgMalloc (n + 1)) p [([.value, .getEntries pkgMalloc n], q)]
  -- `rtpe_tarantool_restore_calls`.  The answer to another request is not read beyond its header.
  | restoreHeader {want entries : ℕ} {p q : Bytes} (h : mapTags.At p entries q) :
      Rule (.restoreHeader want) p [([.restoreEntries want 0 entries], q)]
  | wanted {want : ℕ} (p : Bytes) : Rule (.restoreEntries want want 0) p [([], p)]
  | unwanted {want msgSync : ℕ} (p : Bytes) (h : msgSync ≠ want) :
      Rule (.restoreEntries want msgSync 0) p []
  | msgSync {want msgSync sync n : ℕ} {p q r : Bytes} (hkey : numberTags.At p iprotoSync q)
      (hsync : numberTags.At q sync r) :
      Rule (.restoreEntries want msgSync (n + 1)) p [([.restoreEntries want sync n], r)]
  | otherRestore {want msgSync key n : ℕ} {p q : Bytes} (hkey : numberTags.At p key q)
      (hsync : key ≠ iprotoSync) : Rule (.restoreEntries want msgSync (n + 1)) p
        [([.value, .restoreEntries want msgSync n], q)]
  | restoreBody {entries : ℕ} {p q : Bytes} (h : mapTags.At p entries q) :
      Rule .restoreBody p [([.repeated entries .bodyEntry], q)]
  | data {count : ℕ} {p q r : Bytes} (hkey : numberTags.At p iprotoData q)
      (harr : arrayTags.At q count r) : Rule .bodyEntry p [([.repeated count .dataItem], r)]
  | otherBody {key : ℕ} {p q : Bytes} (hkey : numberTags.At p key q) (hdata : key ≠ iprotoData) :
      Rule .bodyEntry p [([.value], q)]
  | callList {c : UInt8} {count : ℕ} {p q : Bytes} (hc : isArrayTag c = true)
      (harr : arrayTags.At (c :: p) count q) : Rule .dataItem (c :: p) [([.calls count], q)]
  | otherData {c : UInt8} (p : Bytes) (hc : isArrayTag c = false) :
      Rule .dataItem (c :: p) [([.value], c :: p)]
  | callsEnd (p : Bytes) : Rule (.calls 0) p [([], p)]
  | call {c : UInt8} {n entries : ℕ} {p q : Bytes} (hc : isMapTag c = true)
      (hmap : mapTags.At (c :: p) entries q) :
      Rule (.calls (n + 1)) (c :: p) [([.callEntries false entries n], q)]
  | otherCall {c : UInt8} {n : ℕ} (p : Bytes) (hc : isMapTag c = false) :
      Rule (.calls (n + 1)) (c :: p) [([.value, .calls n], c :: p)]
  | nameless {left : ℕ} (p : Bytes) : Rule (.callEntries false 0 left) p [([.calls left], p)]
  -- The callback may end the list behind a call.
  | named {left : ℕ} (p : Bytes) :
      Rule (.callEntries true 0 left) p [([], p), ([.calls left], p)]
  | callId {named : Bool} {n left len : ℕ} {key p q r : Bytes}
      (hkey : strTags.At p key.length (key ++ q))
      (hname : nameOf callNames key = some (ascii "call_id")) (hid : strTags.At q len r)
      (hcopied : len < 128 → len ≤ r.length) : Rule (.callEntries named (n + 1) left) p
        [([.callEntries (namedBy named len r) n left], r.drop len)]
  | nodeId {named : Bool} {n left : ℕ} {key p q : Bytes}
      (hkey : strTags.At p key.length (key ++ q))
      (hname : nameOf callNames key = some (ascii "node_id")) :
      Rule (.callEntries named (n + 1) left) p
        [([.string (· < 64), .callEntries named n left], q)]
  | payload {named : Bool} {c : UInt8} {n left entries : ℕ} {key p q r : Bytes}
      (hkey : strTags.At p key.length (key ++ c :: q))
      (hname : nameOf callNames key = some (ascii "payload")) (hc : c &&& 0xf0 = 0x80)
      (hmap : mapTags.At (c :: q) entries r) : Rule (.callEntries named (n + 1) left) p
        [([.repeated entries .payloadEntry, .callEntries named n left], r)]
  | otherPayload {named : Bool} {c : UInt8} {n left : ℕ} {key p q : Bytes}
      (hkey : strTags.At p key.length (key ++ c :: q))
      (hname : nameOf callNames key = some (ascii "payload")) (hc : c &&& 0xf0 ≠ 0x80) :
      Rule (.callEntries named (n + 1) left) p [([.value, .callEntries named n left], c :: q)]
  | otherKey {named : Bool} {n left : ℕ} {key p q : Bytes}
      (hkey : strTags.At p key.length (key ++ q)) (hname : nameOf callNames key = none) :
      Rule (.callEntries named (n + 1) left) p [([.value, .callEntries named n left], q)]
  | payloadEntry {key p q : Bytes} (hkey : strTags.At p key.length (key ++ q)) :
      Rule .payloadEntry p [([payloadDue key], q)]

/-- All that is due is there. -/
def InGrammar (due : List Due) (p : Bytes) : Prop := Complete Rule due p

/-- What is due for `check_iproto_status`, `tarantool_get` and `rtpe_tarantool_restore_calls`. -/
def statusDue (wantSync : ℕ) : List Due := [.status wantSync]

def getDue (pkgMalloc : ℕ → Bool) (wantSync : ℕ) (frame : Bytes) : List Due :=
  [.status wantSync, .again frame, .header, .getBody pkgMalloc]

def restoreDue (wantSync : ℕ) : List Due := [.restoreHeader wantSync, .restoreBody]

/-! ## What is there if something is due -/

namespace InGrammar

variable {S : List Due} {p : Bytes}

theorem single {x : Due} {due : List Due} {q : Bytes} (hrule : Rule x p [(due, q)])
    (h : InGrammar (due ++ S) q) : InGrammar (x :: S) p := Complete.single hrule h

theorem iff_of_rule {x : Due} (due : List Due) {q : Bytes}
    (hrule : ∀ outs, Rule x p outs ↔ outs = [(due, q)]) :
    InGrammar (x :: S) p ↔ InGrammar (due ++ S) q := complete_cons_of_rule due hrule

theorem iff_of_reads {x : Due} {P : ℕ → Bytes → Prop} (f : ℕ → List Due)
    (hrule : ∀ outs, Rule x p outs ↔ ∃ n q, P n q ∧ outs = [(f n, q)]) :
    InGrammar (x :: S) p ↔ ∃ n q, P n q ∧ InGrammar (f n ++ S) q :=
  complete_cons_of_reads f hrule

theorem nil_iff : InGrammar [] p ↔ True := iff_of_true (.nil p) trivial

theorem number_iff : InGrammar (.number :: S) p ↔
    ∃ n q, numberTags.At p n q ∧ InGrammar S q := by
  refine iff_of_reads (fun _ => []) fun outs => ⟨fun h => ?_, ?_⟩
  · cases h with
    | number hat => exact ⟨_, _, hat, rfl⟩
  · rintro ⟨n, q, hat, rfl⟩
    exact .number hat

theorem value_iff : InGrammar (.value :: S) p ↔ ∃ q, ValuesAt 1 p q ∧ InGrammar S q := by
  constructor
  · intro h
    obtain ⟨outs, hrule, hrest⟩ := complete_cons.1 h
    cases hrule with
    | value hat => exact ⟨_, hat, hrest _ (List.mem_singleton_self _)⟩
  · rintro ⟨q, hat, h⟩
    exact single (.value hat) h

theorem string_iff {copied : ℕ → Prop} : InGrammar (.string copied :: S) p ↔
    ∃ len q, strTags.At p len q ∧ (copied len → len ≤ q.length) ∧ InGrammar S (q.drop len) := by
  constructor
  · intro h
    obtain ⟨outs, hrule, hrest⟩ := complete_cons.1 h
    cases hrule with
    | string hat hcopied => exact ⟨_, _, hat, hcopied, hrest _ (List.mem_singleton_self _)⟩
  · rintro ⟨len, q, hat, hcopied, h⟩
    exact single (.string hat hcopied) h

theorem repeated_zero_iff {due : Due} :
    InGrammar (.repeated 0 due :: S) p ↔ InGrammar S p := by
  refine iff_of_rule [] fun outs => ⟨fun h => ?_, ?_⟩
  · cases h with
    | repeatedEnd => rfl
  · rintro rfl
    exact .repeatedEnd p

theorem repeated_succ_iff {n : ℕ} {due : Due} : InGrammar (.repeated (n + 1) due :: S) p ↔
    InGrammar (due :: .repeated n due :: S) p := by
  refine iff_of_rule [due, .repeated n due] fun outs => ⟨fun h => ?_, ?_⟩
  · cases h with
    | repeated => rfl
  · rintro rfl
    exact .repeated p

/-! ### The header, as `check_iproto_status` reads it -/

theorem status_iff {want : ℕ} : InGrammar (.status want :: S) p ↔ p = [] ∨
    ∃ n q, mapTags.At p n q ∧ InGrammar (.statusEntries want n :: S) q := by
  constructor
  · intro h
    obtain ⟨outs, hrule, hrest⟩ := complete_cons.1 h
    cases hrule with
    | nothing => exact Or.inl rfl
    | status hat => exact Or.inr ⟨_, _, hat, hrest _ (List.mem_singleton_self _)⟩
  · rintro (rfl | ⟨n, q, hat, h⟩)
    · exact .cons .nothing (List.forall_mem_nil _)
    · exact single (.status hat) h

theorem statusEntries_zero_iff {want : ℕ} :
    InGrammar (.statusEntries want 0 :: S) p ↔ InGrammar S p := by
  refine iff_of_rule [] fun outs => ⟨fun h => ?_, ?_⟩
  · cases h with
    | statusEnd => rfl
  · rintro rfl
    exact .statusEnd p

theorem statusEntries_nil_iff {want n : ℕ} :
    InGrammar (.statusEntries want (n + 1) :: S) [] ↔ InGrammar S [] := by
  constructor
  · intro h
    obtain ⟨outs, hrule, hrest⟩ := complete_cons.1 h
    cases hrule with
    | statusCut => exact hrest _ (List.mem_singleton_self _)
    | code hkey => cases hkey
    | badCode hkey => cases hkey
    | sync hkey => cases hkey
    | badSync hkey => cases hkey
    | otherStatus hkey => cases hkey
  · exact single .statusCut

theorem statusEntries_succ_iff {want n : ℕ} (hp : p ≠ []) :
    InGrammar (.statusEntries want (n + 1) :: S) p ↔ ∃ key q, numberTags.At p key q ∧
      if key = iprotoRequestType then ∃ code r, numberTags.At q code r ∧
        (code = iprotoOk → InGrammar (.statusEntries want n :: S) r)
      else if key = iprotoSync then ∃ sync r, numberTags.At q sync r ∧
        (sync = want → InGrammar (.statusEntries want n :: S) r)
      else InGrammar (.value :: .statusEntries want n :: S) q := by
  have hne : iprotoSync ≠ iprotoRequestType := by decide
  constructor
  · intro h
    obtain ⟨outs, hrule, hrest⟩ := complete_cons.1 h
    cases hrule with
    | statusCut => exact absurd rfl hp
    | code hkey hcode =>
      refine ⟨_, _, hkey, ?_⟩
      rw [if_pos rfl]
      exact ⟨_, _, hcode, fun _ => hrest _ (List.mem_singleton_self _)⟩
    | badCode hkey hcode hbad =>
      refine ⟨_, _, hkey, ?_⟩
      rw [if_pos rfl]
      exact ⟨_, _, hcode, fun h => absurd h hbad⟩
    | sync hkey hsync =>
      refine ⟨_, _, hkey, ?_⟩
      rw [if_neg hne, if_pos rfl]
      exact ⟨_, _, hsync, fun _ => hrest _ (List.mem_singleton_self _)⟩
    | badSync hkey hsync hbad =>
      refine ⟨_, _, hkey, ?_⟩
      rw [if_neg hne, if_pos rfl]
      exact ⟨_, _, hsync, fun h => absurd h hbad⟩
    | otherStatus hkey htype hsync =>
      refine ⟨_, _, hkey, ?_⟩
      rw [if_neg htype, if_neg hsync]
      exact hrest _ (List.mem_singleton_self _)
  · rintro ⟨key, q, hkey, h⟩
    split_ifs at h with htype hsync
    · subst htype
      obtain ⟨code, r, hcode, hnext⟩ := h
      by_cases hok : code = iprotoOk
      · subst hok
        exact single (.code hkey hcode) (hnext rfl)
      · exact .cons (.badCode hkey hcode hok) (List.forall_mem_nil _)
    · subst hsync
      obtain ⟨sync, r, hsync, hnext⟩ := h
      by_cases hsame : sync = want
      · subst hsame
        exact single (.sync hkey hsync) (hnext rfl)
      · exact .cons (.badSync hkey hsync hsame) (List.forall_mem_nil _)
    · exact single (.otherStatus hkey htype hsync) h

/-! ### The frame, as `tarantool_get` reads it -/

theorem again_iff {frame : Bytes} : InGrammar (.again frame :: S) p ↔ InGrammar S frame := by
  refine iff_of_rule [] fun outs => ⟨fun h => ?_, ?_⟩
  · cases h with
    | again => rfl
  · rintro rfl
    exact .again p

theorem header_iff : InGrammar (.header :: S) p ↔
    ∃ n q, mapTags.At p n q ∧ InGrammar (.repeated n .headerEntry :: S) q := by
  refine iff_of_reads (fun n => [.repeated n .headerEntry]) fun outs => ⟨fun h => ?_, ?_⟩
  · cases h with
    | header hat => exact ⟨_, _, hat, rfl⟩
  · rintro ⟨n, q, hat, rfl⟩
    exact .header hat

theorem headerEntry_iff : InGrammar (.headerEntry :: S) p ↔
    ∃ key q, numberTags.At p key q ∧ InGrammar (.value :: S) q := by
  refine iff_of_reads (fun _ => [.value]) fun outs => ⟨fun h => ?_, ?_⟩
  · cases h with
    | headerEntry hat => exact ⟨_, _, hat, rfl⟩
  · rintro ⟨n, q, hat, rfl⟩
    exact .headerEntry hat

variable {pkgMalloc : ℕ → Bool}

theorem getBody_iff : InGrammar (.getBody pkgMalloc :: S) p ↔
    ∃ n q, mapTags.At p n q ∧ InGrammar (.getEntries pkgMalloc n :: S) q := by
  refine iff_of_reads (fun n => [.getEntries pkgMalloc n]) fun outs => ⟨fun h => ?_, ?_⟩
  · cases h with
    | getBody hat => exact ⟨_, _, hat, rfl⟩
  · rintro ⟨n, q, hat, rfl⟩
    exact .getBody hat

theorem getEntries_zero_iff :
    InGrammar (.getEntries pkgMalloc 0 :: S) p ↔ InGrammar S p := by
  refine iff_of_rule [] fun outs => ⟨fun h => ?_, ?_⟩
  · cases h with
    | getEnd => rfl
  · rintro rfl
    exact .getEnd p

theorem getEntries_succ_iff {n : ℕ} : InGrammar (.getEntries pkgMalloc (n + 1) :: S) p ↔
    ∃ key q, numberTags.At p key q ∧
      if key = iprotoData then ∃ arrLen r, arrayTags.At q arrLen r ∧
        if 0 < arrLen then ∃ tupleLen s, arrayTags.At r tupleLen s ∧
          InGrammar (tupleDue tupleLen (pkgMalloc n) ++ .getEntries pkgMalloc n :: S) s
        else InGrammar (.getEntries pkgMalloc n :: S) r
      else InGrammar (.value :: .getEntries pkgMalloc n :: S) q := by
  constructor
  · intro h
    obtain ⟨outs, hrule, hrest⟩ := complete_cons.1 h
    cases hrule with
    | noTuple hkey harr =>
      refine ⟨_, _, hkey, ?_⟩
      rw [if_pos rfl]
      exact ⟨_, _, harr, hrest _ (List.mem_singleton_self _)⟩
    | tuple hkey harr hlen htuple =>
      refine ⟨_, _, hkey, ?_⟩
      rw [if_pos rfl]
      refine ⟨_, _, harr, ?_⟩
      rw [if_pos hlen]
      have hdue := hrest _ (List.mem_singleton_self _)
      rw [List.append_assoc] at hdue
      exact ⟨_, _, htuple, hdue⟩
    | otherGet hkey hdata =>
      refine ⟨_, _, hkey, ?_⟩
      rw [if_neg hdata]
      exact hrest _ (List.mem_singleton_self _)
  · rintro ⟨key, q, hkey, h⟩
    split_ifs at h with hdata
    · subst hdata
      obtain ⟨arrLen, r, harr, h⟩ := h
      split_ifs at h with hlen
      · obtain ⟨tupleLen, s, htuple, h⟩ := h
        refine single (.tuple hkey harr hlen htuple) ?_
        rwa [List.append_assoc]
      · obtain rfl := Nat.eq_zero_of_not_pos hlen
        exact single (.noTuple hkey harr) h
    · exact single (.otherGet hkey hdata) h

/-! ### The frame, as `rtpe_tarantool_restore_calls` reads it -/

theorem restoreHeader_iff {want : ℕ} : InGrammar (.restoreHeader want :: S) p ↔
    ∃ n q, mapTags.At p n q ∧ InGrammar (.restoreEntries want 0 n :: S) q := by
  refine iff_of_reads (fun n => [.restoreEntries want 0 n]) fun outs => ⟨fun h => ?_, ?_⟩
  · cases h with
    | restoreHeader hat => exact ⟨_, _, hat, rfl⟩
  · rintro ⟨n, q, hat, rfl⟩
    exact .restoreHeader hat

theorem restoreEntries_zero_iff {want msgSync : ℕ} :
    InGrammar (.restoreEntries want msgSync 0 :: S) p ↔ (msgSync = want → InGrammar S p) := by
  constructor
  · rintro h rfl
    obtain ⟨outs, hrule, hrest⟩ := complete_cons.1 h
    cases hrule with
    | wanted => exact hrest _ (List.mem_singleton_self _)
    | unwanted _ hne => exact absurd rfl hne
  · intro h
    by_cases hsame : msgSync = want
    · subst hsame
      exact single (.wanted p) (h rfl)
    · exact .cons (.unwanted p hsame) (List.forall_mem_nil _)

theorem restoreEntries_succ_iff {want msgSync n : ℕ} :
    InGrammar (.restoreEntries want msgSync (n + 1) :: S) p ↔ ∃ key q, numberTags.At p key q ∧
      if key = iprotoSync then ∃ sync r, numberTags.At q sync r ∧
        InGrammar (.restoreEntries want sync n :: S) r
      else InGrammar (.value :: .restoreEntries want msgSync n :: S) q := by
  constructor
  · intro h
    obtain ⟨outs, hrule, hrest⟩ := complete_cons.1 h
    cases hrule with
    | msgSync hkey hsync =>
      refine ⟨_, _, hkey, ?_⟩
      rw [if_pos rfl]
      exact ⟨_, _, hsync, hrest _ (List.mem_singleton_self _)⟩
    | otherRestore hkey hsync =>
      refine ⟨_, _, hkey, ?_⟩
      rw [if_neg hsync]
      exact hrest _ (List.mem_singleton_self _)
  · rintro ⟨key, q, hkey, h⟩
    split_ifs at h with hsync
    · subst hsync
      obtain ⟨sync, r, hsync, h⟩ := h
      exact single (.msgSync hkey hsync) h
    · exact single (.otherRestore hkey hsync) h

theorem restoreBody_iff : InGrammar (.restoreBody :: S) p ↔
    ∃ n q, mapTags.At p n q ∧ InGrammar (.repeated n .bodyEntry :: S) q := by
  refine iff_of_reads (fun n => [.repeated n .bodyEntry]) fun outs => ⟨fun h => ?_, ?_⟩
  · cases h with
    | restoreBody hat => exact ⟨_, _, hat, rfl⟩
  · rintro ⟨n, q, hat, rfl⟩
    exact .restoreBody hat

theorem bodyEntry_iff : InGrammar (.bodyEntry :: S) p ↔ ∃ key q, numberTags.At p key q ∧
    if key = iprotoData then ∃ count r, arrayTags.At q count r ∧
      InGrammar (.repeated count .dataItem :: S) r
    else InGrammar (.value :: S) q := by
  constructor
  · intro h
    obtain ⟨outs, hrule, hrest⟩ := complete_cons.1 h
    cases hrule with
    | data hkey harr =>
      refine ⟨_, _, hkey, ?_⟩
      rw [if_pos rfl]
      exact ⟨_, _, harr, hrest _ (List.mem_singleton_self _)⟩
    | otherBody hkey hdata =>
      refine ⟨_, _, hkey, ?_⟩
      rw [if_neg hdata]
      exact hrest _ (List.mem_singleton_self _)
  · rintro ⟨key, q, hkey, h⟩
    split_ifs at h with hdata
    · subst hdata
      obtain ⟨count, r, harr, h⟩ := h
      exact single (.data hkey harr) h
    · exact single (.otherBody hkey hdata) h

theorem not_dataItem_nil : ¬ InGrammar (.dataItem :: S) [] := by
  intro h
  obtain ⟨outs, hrule, -⟩ := complete_cons.1 h
  cases hrule

theorem dataItem_iff {c : UInt8} : InGrammar (.dataItem :: S) (c :: p) ↔
    if isArrayTag c = true then ∃ count q, arrayTags.At (c :: p) count q ∧
      InGrammar (.calls count :: S) q
    else InGrammar (.value :: S) (c :: p) := by
  constructor
  · intro h
    obtain ⟨outs, hrule, hrest⟩ := complete_cons.1 h
    cases hrule with
    | callList hc harr =>
      rw [if_pos hc]
      exact ⟨_, _, harr, hrest _ (List.mem_singleton_self _)⟩
    | otherData _ hc =>
      rw [if_neg (Bool.eq_false_iff.1 hc)]
      exact hrest _ (List.mem_singleton_self _)
  · intro h
    split_ifs at h with hc
    · obtain ⟨count, q, harr, h⟩ := h
      exact single (.callList hc harr) h
    · exact single (.otherData p (Bool.eq_false_iff.2 hc)) h

theorem calls_zero_iff : InGrammar (.calls 0 :: S) p ↔ InGrammar S p := by
  refine iff_of_rule [] fun outs => ⟨fun h => ?_, ?_⟩
  · cases h with
    | callsEnd => rfl
  · rintro rfl
    exact .callsEnd p

theorem not_calls_nil {n : ℕ} : ¬ InGrammar (.calls (n + 1) :: S) [] := by
  intro h
  obtain ⟨outs, hrule, -⟩ := complete_cons.1 h
  cases hrule

theorem calls_succ_iff {c : UInt8} {n : ℕ} : InGrammar (.calls (n + 1) :: S) (c :: p) ↔
    if isMapTag c = true then ∃ entries q, mapTags.At (c :: p) entries q ∧
      InGrammar (.callEntries false entries n :: S) q
    else InGrammar (.value :: .calls n :: S) (c :: p) := by
  constructor
  · intro h
    obtain ⟨outs, hrule, hrest⟩ := complete_cons.1 h
    cases hrule with
    | call hc hmap =>
      rw [if_pos hc]
      exact ⟨_, _, hmap, hrest _ (List.mem_singleton_self _)⟩
    | otherCall _ hc =>
      rw [if_neg (Bool.eq_false_iff.1 hc)]
      exact hrest _ (List.mem_singleton_self _)
  · intro h
    split_ifs at h with hc
    · obtain ⟨entries, q, hmap, h⟩ := h
      exact single (.call hc hmap) h
    · exact single (.otherCall p (Bool.eq_false_iff.2 hc)) h

theorem callEntries_zero_iff {named : Bool} {left : ℕ} :
    InGrammar (.callEntries named 0 left :: S) p ↔
      (named = true → InGrammar S p) ∧ InGrammar (.calls left :: S) p := by
  constructor
  · intro h
    obtain ⟨outs, hrule, hrest⟩ := complete_cons.1 h
    cases hrule with
    | nameless =>
      refine ⟨fun hnamed => absurd hnamed Bool.false_ne_true, ?_⟩
      exact hrest _ (List.mem_singleton_self _)
    | named => exact ⟨fun _ => hrest _ List.mem_cons_self, hrest ([.calls left], p) (by simp)⟩
  · rintro ⟨hstop, hgo⟩
    cases named with
    | false => exact single (.nameless p) hgo
    | true =>
      exact .cons (.named p) (List.forall_mem_cons.2 ⟨hstop rfl, List.forall_mem_singleton.2 hgo⟩)

theorem nameOf_mem {names : List Bytes} {key name : Bytes} (h : nameOf names key = some name) :
    name ∈ names := List.mem_of_find?_eq_some h

theorem callNames_ne : ascii "node_id" ≠ ascii "call_id" ∧ ascii "payload" ≠ ascii "call_id" ∧
    ascii "payload" ≠ ascii "node_id" := by decide

theorem callEntries_succ_iff {named : Bool} {n left : ℕ} :
    InGrammar (.callEntries named (n + 1) left :: S) p ↔
      ∃ key q, strTags.At p key.length (key ++ q) ∧
        if nameOf callNames key = some (ascii "call_id") then ∃ len r, strTags.At q len r ∧
          (len < 128 → len ≤ r.length) ∧
            InGrammar (.callEntries (namedBy named len r) n left :: S) (r.drop len)
        else if nameOf callNames key = some (ascii "node_id") then
          InGrammar (.string (· < 64) :: .callEntries named n left :: S) q
        else if nameOf callNames key = some (ascii "payload") ∧
            ∃ c, q.head? = some c ∧ c &&& 0xf0 = 0x80 then
          ∃ entries r, mapTags.At q entries r ∧
            InGrammar (.repeated entries .payloadEntry :: .callEntries named n left :: S) r
        else InGrammar (.value :: .callEntries named n left :: S) q := by
  have hnames := callNames_ne
  constructor
  · intro h
    obtain ⟨outs, hrule, hrest⟩ := complete_cons.1 h
    cases hrule with
    | callId hkey hname hid hcopied =>
      refine ⟨_, _, hkey, ?_⟩
      rw [if_pos hname]
      exact ⟨_, _, hid, hcopied, hrest _ (List.mem_singleton_self _)⟩
    | nodeId hkey hname =>
      refine ⟨_, _, hkey, ?_⟩
      rw [if_neg (by simp [hname, hnames]), if_pos hname]
      exact hrest _ (List.mem_singleton_self _)
    | payload hkey hname hc hmap =>
      refine ⟨_, _, hkey, ?_⟩
      rw [if_neg (by simp [hname, hnames]), if_neg (by simp [hname, hnames]),
        if_pos ⟨hname, _, rfl, hc⟩]
      exact ⟨_, _, hmap, hrest _ (List.mem_singleton_self _)⟩
    | otherPayload hkey hname hc =>
      refine ⟨_, _, hkey, ?_⟩
      rw [if_neg (by simp [hname, hnames]), if_neg (by simp [hname, hnames]),
        if_neg (by simpa using fun _ => hc)]
      exact hrest _ (List.mem_singleton_self _)
    | otherKey hkey hname =>
      refine ⟨_, _, hkey, ?_⟩
      rw [if_neg (by simp [hname]), if_neg (by simp [hname]), if_neg (by simp [hname])]
      exact hrest _ (List.mem_singleton_self _)
  · rintro ⟨key, q, hkey, h⟩
    split_ifs at h with hid hnode hpayload
    · obtain ⟨len, r, hat, hcopied, h⟩ := h
      exact single (.callId hkey hid hat hcopied) h
    · exact single (.nodeId hkey hnode) h
    · obtain ⟨hname, c, hhead, hc⟩ := hpayload
      obtain ⟨entries, r, hmap, h⟩ := h
      obtain ⟨q, rfl⟩ := List.head?_eq_some_iff.1 hhead
      exact single (.payload hkey hname hc hmap) h
    · cases q with
      | nil =>
        obtain ⟨r, hvalue, -⟩ := value_iff.1 h
        exact absurd hvalue not_valuesAt_nil
      | cons c q =>
        cases hname : nameOf callNames key with
        | none => exact single (.otherKey hkey hname) h
        | some name =>
          have hmem := nameOf_mem hname
          simp only [callNames, List.mem_cons, List.not_mem_nil, or_false] at hmem
          rcases hmem with rfl | rfl | rfl
          · exact absurd hname hid
          · exact absurd hname hnode
          · exact single (.otherPayload hkey hname fun hc => hpayload ⟨hname, c, rfl, hc⟩) h

theorem payloadEntry_iff : InGrammar (.payloadEntry :: S) p ↔
    ∃ key q, strTags.At p key.length (key ++ q) ∧ InGrammar (payloadDue key :: S) q := by
  constructor
  · intro h
    obtain ⟨outs, hrule, hrest⟩ := complete_cons.1 h
    cases hrule with
    | payloadEntry hkey => exact ⟨_, _, hkey, hrest _ (List.mem_singleton_self _)⟩
  · rintro ⟨key, q, hkey, h⟩
    exact single (.payloadEntry hkey) h

end InGrammar

end VoipBackend
