import VoipBackend.Asterisk.DecodeChunk
import VoipBackend.Asterisk.Exec
import VoipBackend.Asterisk.ResConfig
import VoipBackend.Wire.Sizes
import VoipBackend.Wire.Tags

/-!
# What `realtime_tarantool` returns

`ast_realtime_get` answers with a list, which Tarantool sends in the map of the body.
`ast_tarantool_exec_raw` strips the header only, so that `realtime_tarantool` finds that map where
it looks for the list, and returns the fields it was asked with (`returnsPairs_iff`).
-/

namespace VoipBackend

open Library MsgPack

namespace Asterisk

open Msgpuck hiding mpDecodeUint

/-! ## The decoder -/

/-- What `memcpy` puts into a buffer of `size` bytes that is to end with a NUL. -/
def copyBytes (size : ℕ) (r : StrRef) : Option Bytes := StrRef.bytes ⟨r.s, min r.len (size - 1)⟩

/-- The loop over the entries of a map.  What is behind the NUL of `vbuf` has no value yet: there is
no result if `decode_chunk` reads it. -/
def mapLoop : ℕ → List Variable → Bytes → Option (List Variable × Bytes)
  | 0, vars, p => some (vars, p)
  | mapSz + 1, vars, p => do
      let (kstr, p) ← mpDecodeStr p
      if kstr.len = 0 then mapLoop mapSz vars p
      else
        let kbuf ← copyBytes 128 kstr
        let (vstr, p) ← mpDecodeStr p
        if vstr.len = 0 then mapLoop mapSz vars p
        else
          let vbuf ← copyBytes 512 vstr
          let vbuf ← decodeChunk (vbuf ++ [0])
          mapLoop mapSz (vars ++ [⟨CString.ofBuffer kbuf, CString.ofBuffer vbuf⟩]) p

/-- The loop over the elements of the array. -/
def arrayLoop : ℕ → List Variable → Bytes → Option (List Variable)
  | 0, vars, _ => some vars
  | _ + 1, _, [] => none
  | arrSz + 1, vars, c :: p =>
      if c = 0x80 ∨ c = 0xde ∨ c = 0xdf then do
        let (mapSz, p) ← mpDecodeMap (c :: p)
        let (vars, p) ← mapLoop mapSz vars p
        arrayLoop arrSz vars p
      else arrayLoop arrSz vars (c :: p)

/-- What is made of the response in the buffer: its array, or else the fields that were asked
with. -/
def parseResp (fields : List Variable) : Bytes → Option (List Variable)
  | [] => none
  | c :: p =>
      if c = 0 then some []
      else if c = 0x90 ∨ c = 0xdc ∨ c = 0xdd then do
        let (arrSz, p) ← mpDecodeArray (c :: p)
        arrayLoop arrSz [] p
      else some fields

/-- The variables there is memory for: `memory n` is whether there is some for the `n`-th. -/
def allocated (memory : ℕ → Bool) (vars : List Variable) : List Variable :=
  (vars.zipIdx.filter fun v => memory v.2).map Prod.fst

/-- `sizeof(resp)`. -/
def respSize : ℕ := 4096

/-- The body of `ast_tarantool_call`. -/
def callBody (procName paramsJson : Bytes) : Bytes :=
  mpEncodeMap 2 ++ mpEncodeUint iprotoFunctionName ++ mpEncodeStr procName ++
    mpEncodeUint iprotoTuple ++
    if paramsJson = [] then mpEncodeArray 0 else mpEncodeArray 1 ++ mpEncodeStr paramsJson

/-- `sizeof(body)`. -/
def bodySize : ℕ := 2048

/-- The request of `ast_tarantool_call`. -/
def callRequest (procName paramsJson : Bytes) (resSize : ℕ) : RawRequest :=
  ⟨iprotoCall, callBody procName paramsJson, resSize⟩

@[simp] theorem resSize_callRequest (procName paramsJson : Bytes) (resSize : ℕ) :
    (callRequest procName paramsJson resSize).resSize = resSize := rfl

/-- `ast_tarantool_call` over the connection it acquires: the return code, and what is copied to
the buffer.  The body is encoded in a buffer without asking whether it fits: there is no result if
it does not. -/
def tarantoolCall (x : Exchange) (sock : Option Socket) (procName paramsJson : Bytes)
    (resSize : ℕ) : Option (ℤ × Option Copy) :=
  match sock with
  | none => some (-1, none)
  | some sock =>
      if bodySize < (callBody procName paramsJson).length then none
      else (execRaw x sock (callRequest procName paramsJson resSize)).map fun reply =>
        (if 0 ≤ reply.rc then 0 else -1, reply.res)

/-- `realtime_tarantool`; the empty list stands for `NULL`.  It acquires a connection of its own
(`outer`), and `ast_tarantool_call` another one. -/
def realtimeTarantool (memory : ℕ → Bool) (x : Exchange) (outer inner : Option Socket)
    (table : Bytes) (fields : List Variable) : Option (List Variable) :=
  if outer = none then some []
  else
    match realtimeRequest table fields with
    | none => none
    | some .nothing => some []
    | some (.call proc json) =>
        match tarantoolCall x inner proc json respSize with
        | none => none
        | some (rc, res) =>
            if rc < 0 then some []
            else
              match res with
              | none => none
              | some resp => (parseResp fields resp.bytes).map (allocated memory)

/-! ## What is found in a response -/

/-- So many entries of a map add these variables: a key and a value are strings, of which a buffer
takes what it can.  An empty key has no value behind it. -/
inductive EntriesAt : ℕ → List Variable → Bytes → List Variable → Bytes → Prop
  | done (vars : List Variable) (p : Bytes) : EntriesAt 0 vars p vars p
  | noKey {n : ℕ} {vars vars' : List Variable} {p s left : Bytes} (hkey : strTags.At p 0 s)
      (hrest : EntriesAt n vars s vars' left) : EntriesAt (n + 1) vars p vars' left
  | noValue {n klen : ℕ} {vars vars' : List Variable} {p s t left : Bytes}
      (hkey : strTags.At p klen s) (hklen : klen ≠ 0) (hname : min klen 127 ≤ s.length)
      (hval : strTags.At (s.drop klen) 0 t) (hrest : EntriesAt n vars t vars' left) :
      EntriesAt (n + 1) vars p vars' left
  | entry {n klen vlen : ℕ} {vars vars' : List Variable} {p s t vbuf left : Bytes}
      (hkey : strTags.At p klen s) (hklen : klen ≠ 0) (hname : min klen 127 ≤ s.length)
      (hval : strTags.At (s.drop klen) vlen t) (hvlen : vlen ≠ 0)
      (hvalue : min vlen 511 ≤ t.length)
      (hchunk : decodeChunk (t.take (min vlen 511) ++ [0]) = some vbuf)
      (hrest : EntriesAt n (vars ++ [⟨CString.ofBuffer (s.take (min klen 127)),
        CString.ofBuffer vbuf⟩]) (t.drop vlen) vars' left) : EntriesAt (n + 1) vars p vars' left

/-- So many elements of an array add these variables, if they are maps.  Any other element is left
where it is. -/
inductive ElementsAt : ℕ → List Variable → Bytes → List Variable → Prop
  | done (vars : List Variable) (p : Bytes) : ElementsAt 0 vars p vars
  | map {n size : ℕ} {c : UInt8} {vars vars' out : List Variable} {p q r : Bytes}
      (hc : c = 0x80 ∨ c = 0xde ∨ c = 0xdf) (hmap : mapTags.At (c :: p) size q)
      (hentries : EntriesAt size vars q vars' r) (hrest : ElementsAt n vars' r out) :
      ElementsAt (n + 1) vars (c :: p) out
  | other {n : ℕ} {c : UInt8} {vars out : List Variable} {p : Bytes}
      (hc : ¬ (c = 0x80 ∨ c = 0xde ∨ c = 0xdf)) (hrest : ElementsAt n vars (c :: p) out) :
      ElementsAt (n + 1) vars (c :: p) out

/-- The variables that are found in the buffer: those of a list, or else the fields of the
query. -/
inductive FoundAt (fields : List Variable) : Bytes → List Variable → Prop
  | nothing (p : Bytes) : FoundAt fields (0 :: p) []
  | list {c : UInt8} {n : ℕ} {p q : Bytes} {vars : List Variable}
      (hc : c = 0x90 ∨ c = 0xdc ∨ c = 0xdd) (hat : arrayTags.At (c :: p) n q)
      (helements : ElementsAt n [] q vars) : FoundAt fields (c :: p) vars
  | query {c : UInt8} (p : Bytes) (hzero : c ≠ 0) (hc : ¬ (c = 0x90 ∨ c = 0xdc ∨ c = 0xdd)) :
      FoundAt fields (c :: p) fields

theorem copyBytes_eq_some_iff {size : ℕ} {str : StrRef} {buf : Bytes} :
    copyBytes size str = some buf ↔
      min str.len (size - 1) ≤ str.s.length ∧ str.s.take (min str.len (size - 1)) = buf := by
  rw [copyBytes, StrRef.bytes]
  split_ifs with h <;> simp [h]

theorem mapLoop_eq_some_iff {n : ℕ} {vars vars' : List Variable} {p left : Bytes} :
    mapLoop n vars p = some (vars', left) ↔ EntriesAt n vars p vars' left := by
  induction n generalizing vars p with
  | zero =>
    constructor
    · intro h
      cases h
      exact .done _ _
    · intro h
      cases h
      rfl
  | succ n ih =>
    constructor
    · intro h
      simp only [mapLoop, Option.bind_eq_bind, Option.bind_eq_some_iff] at h
      obtain ⟨⟨kstr, q⟩, hkstr, h⟩ := h
      obtain ⟨hkey, rfl⟩ := mpDecodeStr_eq_some_iff.1 hkstr
      split_ifs at h with hklen
      · rw [hklen] at hkey
        rw [hklen, List.drop_zero] at h
        exact .noKey hkey (ih.1 h)
      · simp only [Option.bind_eq_some_iff] at h
        obtain ⟨kbuf, hkbuf, ⟨vstr, q⟩, hvstr, h⟩ := h
        obtain ⟨hname, rfl⟩ := copyBytes_eq_some_iff.1 hkbuf
        obtain ⟨hval, rfl⟩ := mpDecodeStr_eq_some_iff.1 hvstr
        split_ifs at h with hvlen
        · rw [hvlen] at hval
          rw [hvlen, List.drop_zero] at h
          exact .noValue hkey hklen hname hval (ih.1 h)
        · simp only [Option.bind_eq_some_iff] at h
          obtain ⟨buf, hbuf, vbuf, hchunk, h⟩ := h
          obtain ⟨hvalue, rfl⟩ := copyBytes_eq_some_iff.1 hbuf
          exact .entry hkey hklen hname hval hvlen hvalue hchunk (ih.1 h)
    · intro h
      rw [mapLoop]
      cases h with
      | @noKey _ _ _ _ s _ hkey hrest =>
        have hread : mpDecodeStr p = some (⟨s, 0⟩, s) := mpDecodeStr_eq_some_iff.2 ⟨hkey, rfl⟩
        simp only [hread, Option.bind_eq_bind, Option.bind_some, if_true]
        exact ih.2 hrest
      | @noValue _ klen _ _ _ s t _ hkey hklen hname hval hrest =>
        have hread : mpDecodeStr p = some (⟨s, klen⟩, s.drop klen) :=
          mpDecodeStr_eq_some_iff.2 ⟨hkey, rfl⟩
        have hcopy : copyBytes 128 ⟨s, klen⟩ = some (s.take (min klen 127)) :=
          copyBytes_eq_some_iff.2 ⟨hname, rfl⟩
        have hread' : mpDecodeStr (s.drop klen) = some (⟨t, 0⟩, t) :=
          mpDecodeStr_eq_some_iff.2 ⟨hval, rfl⟩
        simp only [hread, hcopy, hread', Option.bind_eq_bind, Option.bind_some, if_neg hklen,
          if_true]
        exact ih.2 hrest
      | @entry _ klen vlen _ _ _ s t vbuf _ hkey hklen hname hval hvlen hvalue hchunk hrest =>
        have hread : mpDecodeStr p = some (⟨s, klen⟩, s.drop klen) :=
          mpDecodeStr_eq_some_iff.2 ⟨hkey, rfl⟩
        have hcopy : copyBytes 128 ⟨s, klen⟩ = some (s.take (min klen 127)) :=
          copyBytes_eq_some_iff.2 ⟨hname, rfl⟩
        have hread' : mpDecodeStr (s.drop klen) = some (⟨t, vlen⟩, t.drop vlen) :=
          mpDecodeStr_eq_some_iff.2 ⟨hval, rfl⟩
        have hcopy' : copyBytes 512 ⟨t, vlen⟩ = some (t.take (min vlen 511)) :=
          copyBytes_eq_some_iff.2 ⟨hvalue, rfl⟩
        simp only [hread, hcopy, hread', hcopy', hchunk, Option.bind_eq_bind, Option.bind_some,
          if_neg hklen, if_neg hvlen]
        exact ih.2 hrest

theorem arrayLoop_eq_some_iff {n : ℕ} {vars out : List Variable} {p : Bytes} :
    arrayLoop n vars p = some out ↔ ElementsAt n vars p out := by
  induction n generalizing vars p with
  | zero =>
    constructor
    · intro h
      cases h
      exact .done _ _
    · intro h
      cases h
      rfl
  | succ n ih =>
    cases p with
    | nil => exact iff_of_false (fun h => nomatch h) (fun h => nomatch h)
    | cons c p =>
      rw [arrayLoop]
      constructor
      · intro h
        split_ifs at h with hc
        · simp only [Option.bind_eq_bind, Option.bind_eq_some_iff] at h
          obtain ⟨⟨size, q⟩, hmap, ⟨vars', r⟩, hentries, h⟩ := h
          exact .map hc (mpDecodeMap_eq_some_iff.1 hmap) (mapLoop_eq_some_iff.1 hentries) (ih.1 h)
        · exact .other hc (ih.1 h)
      · intro h
        cases h with
        | map hc hmap hentries hrest =>
          rw [if_pos hc]
          simp only [mpDecodeMap_eq_some_iff.2 hmap, mapLoop_eq_some_iff.2 hentries,
            Option.bind_eq_bind, Option.bind_some]
          exact ih.2 hrest
        | other hc hrest =>
          rw [if_neg hc]
          exact ih.2 hrest

theorem parseResp_eq_some_iff {fields vars : List Variable} {p : Bytes} :
    parseResp fields p = some vars ↔ FoundAt fields p vars := by
  cases p with
  | nil => exact iff_of_false (fun h => nomatch h) (fun h => nomatch h)
  | cons c p =>
    rw [parseResp]
    constructor
    · intro h
      split_ifs at h with hzero hc
      · cases h
        subst hzero
        exact .nothing p
      · simp only [Option.bind_eq_bind, Option.bind_eq_some_iff] at h
        obtain ⟨⟨n, q⟩, hat, h⟩ := h
        exact .list hc (mpDecodeArray_eq_some_iff.1 hat) (arrayLoop_eq_some_iff.1 h)
      · cases h
        exact .query p hzero hc
    · intro h
      cases h with
      | nothing => exact if_pos rfl
      | list hc hat helements =>
        have hzero : c ≠ 0 := by rcases hc with rfl | rfl | rfl <;> decide
        rw [if_neg hzero, if_pos hc]
        simp only [mpDecodeArray_eq_some_iff.2 hat, Option.bind_eq_bind, Option.bind_some]
        exact arrayLoop_eq_some_iff.2 helements
      | query _ hzero hc => rw [if_neg hzero, if_neg hc]

/-! ## The answer of `ast_realtime_get` -/

/-- The list that `ast_realtime_get` returns: one map, or nothing. -/
def resultValue (pairs : List Variable) : Value :=
  if pairs = [] then .array []
  else .array [.map (pairs.map fun v => (.str v.name, .str v.value))]

/-- `realtime_tarantool` asks, and the response is a success with this result. -/
structure AnswersObject (x : Exchange) (sock : Socket) (table : Bytes) (fields : List Variable)
    (json : Bytes) (h : Header) (body : Item) (pairs : List Variable) : Prop where
  asks : realtimeRequest table fields = some (.call (ascii "ast_realtime_get") json)
  responds : Responds x sock (callRequest (ascii "ast_realtime_get") json respSize) h body.bytes
  numeric : RtpEngine.Numeric h.entries
  ok : h.Ok
  valid : body.Valid
  result : body.value = .map [(.int iprotoData, resultValue pairs)]
  short : body.bytes.length ≤ respSize

/-- Exactly these pairs are returned. -/
def ReturnsPairs (memory : ℕ → Bool) (x : Exchange) (outer : Option Socket) (sock : Socket)
    (table : Bytes) (fields pairs : List Variable) : Prop :=
  realtimeTarantool memory x outer (some sock) table fields = some pairs

/-- A map does not begin like an array. -/
theorem tag_of_map {item : Item} (hvalid : item.Valid) {entries : List (Value × Value)}
    (h : item.value = .map entries) :
    item.tag ≠ 0 ∧ ¬ (item.tag = 0x90 ∨ item.tag = 0xdc ∨ item.tag = 0xdd) := by
  cases item with
  | fixmap es =>
    rw [Item.Valid] at hvalid
    obtain ⟨hlen, -⟩ := hvalid
    rw [Item.tag]
    generalize es.length = n at hlen
    decide +revert
  | map w es =>
    rw [Item.tag]
    cases w <;> decide
  | _ => simp [Item.value] at h

variable {memory : ℕ → Bool} {x : Exchange} {outer : Option Socket} {sock : Socket}
  {table json : Bytes} {fields vars pairs : List Variable} {h : Header} {body : Item}
  {numbers : List (ℕ × ℕ)} {left : Bytes}

/-- The arguments are cut, so that the body fits. -/
theorem length_realtimeBody_le
    (hasks : realtimeRequest table fields = some (.call (ascii "ast_realtime_get") json)) :
    (callBody (ascii "ast_realtime_get") json).length ≤ bodySize := by
  have hjson : json.length ≤ 1023 := by
    cases fields with
    | nil => cases hasks
    | cons f fields =>
      simp only [realtimeRequest, Option.bind_eq_bind, Option.bind_eq_some_iff] at hasks
      obtain ⟨⟨text, n⟩, hprinted, hasks⟩ := hasks
      split_ifs at hasks with hlong
      · cases hasks
      · have hsame : text = json := by simpa using hasks
        simp only [snprintf] at hprinted
        split_ifs at hprinted with hbad hfull
        · exact absurd hfull (by decide)
        · have htext : (threeStrings table f.name f.value).take 1023 = text :=
            congrArg Prod.fst (Option.some.inj hprinted)
          rw [← hsame, ← htext]
          exact List.length_take_le _ _
  have hname : strSize (ascii "ast_realtime_get").length = 17 := rfl
  have htext := strSize_le json.length
  have hkeys : uintSize iprotoFunctionName = 1 ∧ uintSize iprotoTuple = 1 := ⟨rfl, rfl⟩
  rw [callBody, bodySize]
  split_ifs
  · simp only [List.length_append, length_mpEncodeUint, length_mpEncodeStr, hname, hkeys,
      length_mpEncodeMap (show 2 ≤ 15 by norm_num), length_mpEncodeArray (Nat.zero_le 15)]
    norm_num
  · simp only [List.length_append, length_mpEncodeUint, length_mpEncodeStr, hname, hkeys,
      length_mpEncodeMap (show 2 ≤ 15 by norm_num), length_mpEncodeArray (show 1 ≤ 15 by norm_num)]
    omega

/-- `realtime_tarantool`, once it has asked. -/
theorem realtimeTarantool_asks (houter : outer ≠ none)
    (hasks : realtimeRequest table fields = some (.call (ascii "ast_realtime_get") json)) :
    realtimeTarantool memory x outer (some sock) table fields =
      (execRaw x sock (callRequest (ascii "ast_realtime_get") json respSize)).bind fun reply =>
        if reply.rc < 0 then some []
        else reply.res.bind fun resp => (parseResp fields resp.bytes).map (allocated memory) := by
  rw [realtimeTarantool, if_neg houter, hasks]
  simp only [tarantoolCall, if_neg (not_lt.2 (length_realtimeBody_le hasks))]
  cases execRaw x sock (callRequest (ascii "ast_realtime_get") json respSize) with
  | none => rfl
  | some reply =>
    rw [Option.map_some, Option.bind_some]
    by_cases hrc : reply.rc < 0
    · simp [hrc, not_le.2 hrc]
    · have hrc' : ¬ (if 0 ≤ reply.rc then (0 : ℤ) else -1) < 0 := by
        rw [if_pos (not_lt.1 hrc)]
        norm_num
      simp only [if_neg hrc', if_neg hrc]
      cases reply.res <;> rfl

/-- What is returned behind a header that is read as these numbers: nothing of a failure, and the
variables that are found in what is left, which a buffer takes the beginning of. -/
inductive Returned (memory : ℕ → Bool) (fields : List Variable) (numbers : List (ℕ × ℕ))
    (left : Bytes) : List Variable → Prop
  | nothing (h : ¬ (codeOf 0 numbers = iprotoOk ∧ left.length < 2 ^ 31)) :
      Returned memory fields numbers left []
  | found {vars : List Variable} (hcode : codeOf 0 numbers = iprotoOk)
      (hlen : left.length < 2 ^ 31)
      (hfound : FoundAt fields (left.take (respSize - 1) ++ [0]) vars) :
      Returned memory fields numbers left (allocated memory vars)

/-- Nothing is returned of a response that there is no memory for. -/
theorem realtimeTarantool_not_fits (houter : outer ≠ none)
    (ha : AnswersObject x sock table fields json h body pairs) (hfits : ¬ Fits x h body.bytes) :
    realtimeTarantool memory x outer (some sock) table fields = some [] := by
  rw [realtimeTarantool_asks houter ha.asks, execRaw_responds ha.responds,
    if_pos (not_not.1 (mt fits_iff.2 hfits)), Option.bind_some, if_pos (by norm_num)]

/-- A header that is read in pairs. -/
theorem realtimeTarantool_reads (houter : outer ≠ none)
    (ha : AnswersObject x sock table fields json h body pairs) (hfits : Fits x h body.bytes)
    (hreads : Reads h body.bytes numbers left) :
    realtimeTarantool memory x outer (some sock) table fields = some vars ↔
      Returned memory fields numbers left vars := by
  have hbuf : 0 < respSize := by decide
  have htake : left.take (min left.length (respSize - 1)) = left.take (respSize - 1) := by
    rw [min_comm, ← List.take_take, List.take_length]
  rw [realtimeTarantool_asks houter ha.asks, execRaw_responds ha.responds,
    if_neg (fits_iff.1 hfits), readResponse_reads hreads, resSize_callRequest]
  by_cases hcode : codeOf 0 numbers = iprotoOk
  · rw [if_neg (not_not.2 hcode), Option.bind_some, if_pos hbuf]
    by_cases hlen : left.length < 2 ^ 31
    · rw [toInt_of_lt hlen, if_neg (not_lt.2 (Int.natCast_nonneg _)), Option.bind_some, Copy.bytes,
        htake, Option.map_eq_some_iff]
      constructor
      · rintro ⟨vars, hparse, rfl⟩
        exact .found hcode hlen (parseResp_eq_some_iff.1 hparse)
      · intro h
        cases h with
        | nothing h => exact absurd ⟨hcode, hlen⟩ h
        | found _ _ hfound => exact ⟨_, parseResp_eq_some_iff.2 hfound, rfl⟩
    · have hshort := lt_of_le_of_lt hreads.length_left_le ha.responds.short
      rw [if_pos (toInt_neg (not_lt.1 hlen) (by omega)), Option.some.injEq]
      constructor
      · rintro rfl
        exact .nothing fun h => hlen h.2
      · intro h
        cases h with
        | nothing => rfl
        | found _ h => exact absurd h hlen
  · rw [if_pos hcode, Option.bind_some, if_pos (by norm_num), Option.some.injEq]
    constructor
    · rintro rfl
      exact .nothing fun h => hcode h.1
    · intro h
      cases h with
      | nothing => rfl
      | found h => exact absurd h hcode

/-- For every header. -/
theorem returnsPairs_header (houter : outer ≠ none)
    (ha : AnswersObject x sock table fields json h body pairs) :
    ReturnsPairs memory x outer sock table fields pairs ↔ (¬ Fits x h body.bytes ∧ pairs = []) ∨
      (Fits x h body.bytes ∧ ∃ numbers left, Reads h body.bytes numbers left ∧
        Returned memory fields numbers left pairs) := by
  rw [ReturnsPairs]
  by_cases hfits : Fits x h body.bytes
  · constructor
    · intro hreturns
      refine Or.inr ⟨hfits, ?_⟩
      by_cases hreads : ∃ numbers left, Reads h body.bytes numbers left
      · obtain ⟨numbers, left, hreads⟩ := hreads
        exact ⟨numbers, left, hreads,
          (realtimeTarantool_reads houter ha hfits hreads).1 hreturns⟩
      · have hnone : ∀ numbers left, ¬ Reads h body.bytes numbers left :=
          fun numbers left hreads' => hreads ⟨numbers, left, hreads'⟩
        rw [realtimeTarantool_asks houter ha.asks, execRaw_responds ha.responds,
          if_neg (fits_iff.1 hfits), readResponse_eq_none hnone] at hreturns
        cases hreturns
    · rintro (⟨hnot, -⟩ | ⟨-, numbers, left, hreads, hreturned⟩)
      · exact absurd hfits hnot
      · exact (realtimeTarantool_reads houter ha hfits hreads).2 hreturned
  · rw [realtimeTarantool_not_fits houter ha hfits, Option.some.injEq]
    simp [hfits, eq_comm]

/-- What is left begins with neither a zero nor an array: the fields of the query are returned. -/
theorem returned_query {c : UInt8} {p : Bytes} (hcode : codeOf 0 numbers = iprotoOk)
    (hlen : (c :: p).length < 2 ^ 31) (hzero : c ≠ 0)
    (harray : ¬ (c = 0x90 ∨ c = 0xdc ∨ c = 0xdd)) :
    Returned memory fields numbers (c :: p) pairs ↔ allocated memory fields = pairs := by
  have htake : (c :: p).take (respSize - 1) = c :: p.take (respSize - 2) := rfl
  constructor
  · intro h
    cases h with
    | nothing h => exact absurd ⟨hcode, hlen⟩ h
    | found _ _ hfound =>
      rw [htake, List.cons_append] at hfound
      cases hfound with
      | nothing => exact absurd rfl hzero
      | list hc => exact absurd hc harray
      | query => rfl
  · rintro rfl
    refine .found hcode hlen ?_
    rw [htake, List.cons_append]
    exact .query _ hzero harray

/-- What is left begins with a zero or with an empty array: nothing is returned. -/
theorem returned_nothing {c : UInt8} {p : Bytes} (hcode : codeOf 0 numbers = iprotoOk)
    (hlen : (c :: p).length < 2 ^ 31) (hc : c = 0 ∨ c = 0x90) :
    Returned memory fields numbers (c :: p) pairs ↔ pairs = [] := by
  have htake : (c :: p).take (respSize - 1) = c :: p.take (respSize - 2) := rfl
  have hzeros : arrayTags.own 0x90 = some 0 := by decide
  have hfoundNil : FoundAt fields ((c :: p).take (respSize - 1) ++ [0]) [] := by
    rw [htake, List.cons_append]
    rcases hc with rfl | rfl
    · exact .nothing _
    · exact .list (Or.inl rfl) (.own hzeros) (.done _ _)
  constructor
  · intro h
    cases h with
    | nothing => rfl
    | found _ _ hfound =>
      have hsame := (parseResp_eq_some_iff.2 hfound).symm.trans
        (parseResp_eq_some_iff.2 hfoundNil)
      rw [Option.some.inj hsame]
      rfl
  · rintro rfl
    exact .found hcode hlen hfoundNil

/-- Without wide numbers the body is left, which is a map. -/
theorem returnsPairs_narrow (houter : outer ≠ none)
    (ha : AnswersObject x sock table fields json h body pairs) (hfits : Fits x h body.bytes)
    (hnarrow : Narrow h.entries) :
    ReturnsPairs memory x outer sock table fields pairs ↔ allocated memory fields = pairs := by
  have hok : codeOf 0 (numbersOf h.entries) = iprotoOk := by
    rw [codeOf_numbersOf ha.numeric]
    exact (code_eq_ok_iff ha.numeric).2 (Or.inl ha.ok)
  obtain ⟨hzero, harray⟩ := tag_of_map ha.valid ha.result
  have hlen : body.bytes.length < 2 ^ 31 := lt_of_le_of_lt ha.short (by decide)
  rw [ReturnsPairs,
    realtimeTarantool_reads houter ha hfits (reads_narrow ha.numeric hnarrow body.bytes)]
  exact returned_query hok hlen hzero harray

end Asterisk

open Asterisk

/-- **Are the pairs of an object returned?**  Of a response that there is no memory for nothing is
returned.  Otherwise the header is read as pairs of numbers of up to 32 bits, and what is left
behind them is taken for a list.

Without wide numbers that is the body, a map, so that the fields of the query are returned (as far
as there is memory for them), also where there is no such object.  Behind a header as Tarantool
sends it, with a wide sync id whose leading bytes are zeros, nothing is returned.  In general the
fields of the query are returned if what is left begins with neither a zero nor an array, and
nothing if it begins with a zero or an empty array. -/
theorem returnsPairs_iff {memory : ℕ → Bool} {x : Exchange} {outer : Option Socket} {sock : Socket}
    {table json : Bytes} {fields pairs : List Variable} {h : Header} {body : Item}
    (houter : outer ≠ none) (ha : AnswersObject x sock table fields json h body pairs) :
    (ReturnsPairs memory x outer sock table fields pairs ↔ (¬ Fits x h body.bytes ∧ pairs = []) ∨
      (Fits x h body.bytes ∧ ∃ numbers left, Reads h body.bytes numbers left ∧
        Returned memory fields numbers left pairs)) ∧
    (Fits x h body.bytes → ∀ numbers c p, Reads h body.bytes numbers (c :: p) →
      codeOf 0 numbers = iprotoOk → (c :: p).length < 2 ^ 31 →
      (c ∉ [0, 0x90, 0xdc, 0xdd] →
        (ReturnsPairs memory x outer sock table fields pairs ↔ allocated memory fields = pairs)) ∧
      (c ∈ [0, 0x90] →
        (ReturnsPairs memory x outer sock table fields pairs ↔ pairs = []))) ∧
    (Fits x h body.bytes → Narrow h.entries →
      (ReturnsPairs memory x outer sock table fields pairs ↔ allocated memory fields = pairs)) ∧
    (Fits x h body.bytes → ∀ before key n after, FirstWide h before key n after → after ≠ [] →
      2 * after.length < 8 → n < 256 ^ (7 - 2 * after.length) →
        (h.bytes ++ body.bytes).length < 2 ^ 31 →
        (ReturnsPairs memory x outer sock table fields pairs ↔ pairs = [])) := by
  have hreads : ∀ {numbers left}, Fits x h body.bytes → Reads h body.bytes numbers left →
      (ReturnsPairs memory x outer sock table fields pairs ↔
        Returned memory fields numbers left pairs) :=
    fun hfits hreads => realtimeTarantool_reads houter ha hfits hreads
  refine ⟨returnsPairs_header houter ha, ?_, ?_, ?_⟩
  · intro hfits numbers c p hread hcode hlen
    rw [hreads hfits hread]
    constructor
    · intro hc
      simp only [List.mem_cons, List.not_mem_nil, or_false, not_or] at hc
      exact returned_query hcode hlen hc.1 (by tauto)
    · intro hc
      simp only [List.mem_cons, List.not_mem_nil, or_false] at hc
      exact returned_nothing hcode hlen hc
  · intro hfits hnarrow
    exact returnsPairs_narrow houter ha hfits hnarrow
  · intro hfits before key n after hwide hafter hfew hsmall hshort
    obtain ⟨hlarge, hbehind⟩ := bigEndian_left hfew hsmall
    have hread := reads_firstWide hwide ha.numeric hfew.le hlarge body.bytes
    have hcode : codeOf 0 (numbersOf (before ++ [(key, .fixint 0)]) ++
        List.replicate after.length (0, 0)) = iprotoOk := by
      rw [codeOf_append, codeOf_zeros (by simpa using hafter)]
    have hlen := lt_of_le_of_lt hread.length_left_le hshort
    rw [hreads hfits hread, hbehind]
    rw [hbehind] at hlen
    exact returned_nothing hcode hlen (Or.inl rfl)

/-- What Tarantool sends for an object with these pairs. -/
def Asterisk.objectBody (pairs : List (Bytes × Bytes)) : Item :=
  .fixmap [(.fixint 0x30, .fixarray [.fixmap (pairs.map fun v => (.fixstr v.1, .fixstr v.2))])]

/-- The object `1`, which has a host or not. -/
def Asterisk.bareObject : List (Bytes × Bytes) := [(ascii "id", ascii "1")]

def Asterisk.hostObject : List (Bytes × Bytes) :=
  [(ascii "host", ascii "10.0.0.1"), (ascii "id", ascii "1")]

/-- The object `1` is asked for, and this is the answer. -/
theorem Asterisk.answers_object {pairs : List (Bytes × Bytes)}
    (hpairs : pairs = bareObject ∨ pairs = hostObject) :
    AnswersObject (responding shortHeader (objectBody pairs).bytes) freshSocket (ascii "aors")
      [⟨ascii "id", ascii "1"⟩] (threeStrings (ascii "aors") (ascii "id") (ascii "1")) shortHeader
      (objectBody pairs) (pairs.map fun v => ⟨v.1, v.2⟩) where
  asks := by decide
  responds := responds_responding (by rcases hpairs with rfl | rfl <;> decide) _
  numeric := numeric_shortHeader
  ok := ok_shortHeader
  valid := by
    rcases hpairs with rfl | rfl <;>
      simp [objectBody, bareObject, hostObject, Item.Valid, EntriesValid, ItemsValid, ascii]
  result := by
    rcases hpairs with rfl | rfl <;> rfl
  short := by rcases hpairs with rfl | rfl <;> decide

/-- An object that is what it was asked for by. -/
theorem returnsPairs_bareObject :
    ReturnsPairs (fun _ => true) (responding shortHeader (objectBody bareObject).bytes)
      (some freshSocket) freshSocket (ascii "aors") [⟨ascii "id", ascii "1"⟩]
      [⟨ascii "id", ascii "1"⟩] :=
  ((returnsPairs_iff (by decide) (answers_object (Or.inl rfl))).2.2.1 (Or.inr rfl)
    narrow_shortHeader).2 (by decide)

/-- The host is not returned. -/
theorem not_returnsPairs_hostObject :
    ¬ ∀ (x : Exchange) (outer : Option Socket) (sock : Socket) (table json : Bytes)
      (fields pairs : List Variable) (h : Header) (body : Item), outer ≠ none →
      AnswersObject x sock table fields json h body pairs → Fits x h body.bytes → pairs ≠ [] →
      (∀ v ∈ pairs, v.name ≠ [] ∧ v.name.length < 128 ∧ v.value ≠ [] ∧ v.value.length < 512 ∧
        0x5e ∉ v.value) →
      ReturnsPairs (fun _ => true) x outer sock table fields pairs := by
  intro hreturns
  have hpairs := hreturns _ (some freshSocket) _ _ _ _ _ _ _ (by decide)
    (answers_object (Or.inr rfl)) (Or.inr rfl) (by decide) (by decide)
  rw [returnsPairs_narrow (by decide) (answers_object (Or.inr rfl)) (Or.inr rfl)
    narrow_shortHeader] at hpairs
  exact absurd hpairs (by decide)

end VoipBackend
