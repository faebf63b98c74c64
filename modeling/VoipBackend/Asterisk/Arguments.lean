import VoipBackend.Asterisk.ArgumentTexts

/-!
# Are the arguments of the Asterisk modules kept?

A text that does not fit its buffer is cut off, or loses the fields that do not fit.  With what
`ArgumentTexts` says of such texts, a text stands for the arguments exactly if all strings can be
written as they are, no name comes twice and everything fits (`sentExactly_iff`).
-/

namespace VoipBackend

open Library

namespace Asterisk

open Json hiding Value

/-! ## The buffer -/

/-- All of `t` was written to the buffer, and what fits of it is there. -/
structure Holds (size : ℕ) (b : Buffer) (t : Bytes) : Prop where
  off : b.off = t.length
  inside : t.length < size → b.text.take t.length = t
  full : t.length = size → b.text = t.take (size - 1)

theorem holds_empty {size : ℕ} (hsize : 0 < size) : Holds size ⟨[], 0⟩ [] where
  off := rfl
  inside _ := rfl
  full h := absurd h (Nat.ne_of_lt hsize)

variable {size : ℕ} {b b' : Buffer} {t piece : Bytes}

/-- What a piece leaves in the buffer. -/
theorem Holds.snprintf_eq (hb : Holds size b t) (piece : Bytes) :
    snprintf size b piece = if size < t.length ∨ 2 ^ 31 ≤ piece.length then none
      else some ((t ++ piece).take (size - 1), piece.length) := by
  rw [snprintf, hb.off]
  split_ifs with hnone hfull
  · rfl
  · have hcut : size - 1 ≤ t.length := by omega
    rw [hb.full hfull, List.take_append_of_le_length hcut]
  · have hlt : t.length < size := by omega
    have hle : t.length ≤ size - 1 := by omega
    rw [hb.inside hlt, List.take_append, List.take_of_length_le hle, Nat.sub_right_comm]

/-- After a piece. -/
theorem holds_written (size : ℕ) (t : Bytes) : Holds size ⟨t.take (size - 1), t.length⟩ t where
  off := rfl
  inside h := by
    have hle : t.length ≤ size - 1 := by omega
    simp [List.take_of_length_le hle]
  full _ := rfl

/-- After a piece that is not counted. -/
theorem holds_kept (size : ℕ) (t piece : Bytes) :
    Holds size ⟨(t ++ piece).take (size - 1), t.length⟩ t where
  off := rfl
  inside h := by
    have hmin : min t.length (size - 1) = t.length := by omega
    rw [List.take_take, hmin, List.take_append_of_le_length (le_refl _), List.take_length]
  full h := by
    have hcut : size - 1 ≤ t.length := by omega
    exact List.take_append_of_le_length hcut

theorem Holds.append_eq (hb : Holds size b t) (piece : Bytes) :
    append size b piece = if size < t.length ∨ 2 ^ 31 ≤ piece.length then none
      else some ⟨(t ++ piece).take (size - 1), (t ++ piece).length⟩ := by
  rw [append, hb.snprintf_eq]
  split_ifs
  · rfl
  · rw [Option.map_some, hb.off, List.length_append]

theorem Holds.append (hb : Holds size b t) (h : append size b piece = some b') :
    Holds size b' (t ++ piece) := by
  rw [hb.append_eq] at h
  split_ifs at h
  cases h
  exact holds_written size _

/-- The text that is sent after the last piece. -/
theorem Holds.sent (hb : Holds size b t) {text : Bytes} {n : ℕ}
    (h : snprintf size b piece = some (text, n)) : text = (t ++ piece).take (size - 1) := by
  rw [hb.snprintf_eq] at h
  split_ifs at h
  cases h
  rfl

/-- A piece that fits. -/
theorem Holds.append_fits (hb : Holds size b t) (hsize : size ≤ 2 ^ 31)
    (hfits : (t ++ piece).length < size) :
    ∃ b', Asterisk.append size b piece = some b' ∧ Holds size b' (t ++ piece) := by
  have hlen : (t ++ piece).length = t.length + piece.length := List.length_append
  rw [hb.append_eq, if_neg (by omega)]
  exact ⟨_, rfl, holds_written size _⟩

/-! ## The loop over the fields -/

/-- What the loop leaves: all fields, or the ones before the first one that does not fit. -/
theorem Holds.appendFields {fs : List Variable} (hb : Holds size b t)
    (h : appendFields size b fs = some b') :
    Holds size b' (t ++ fieldsText fs) ∨
      ∃ gs hs, hs ≠ [] ∧ fs = gs ++ hs ∧ Holds size b' (t ++ brokenText gs) := by
  induction fs generalizing b t with
  | nil =>
    cases h
    rw [fieldsText, List.append_nil]
    exact Or.inl hb
  | cons f next ih =>
    rw [Asterisk.appendFields, hb.snprintf_eq] at h
    split_ifs at h with hnone
    · cases h
    · rw [Option.bind_eq_bind, Option.bind_some] at h
      simp only at h
      split_ifs at h with hstop
      · cases h
        rw [hb.off]
        refine Or.inr ⟨[], f :: next, List.cons_ne_nil _ _, rfl, ?_⟩
        rw [brokenText, List.append_nil]
        exact holds_kept size t _
      · rw [hb.off, ← List.length_append] at h
        have hwritten := holds_written size (t ++ fieldPiece f next)
        rcases ih hwritten h with hall | ⟨gs, hs, hhs, rfl, hgs⟩
        · rw [List.append_assoc] at hall
          exact Or.inl hall
        · refine Or.inr ⟨f :: gs, hs, hhs, rfl, ?_⟩
          have hpiece : fieldPiece f (gs ++ hs) ++ brokenText gs = brokenText (f :: gs) := by
            simp [fieldPiece, brokenText, hhs, ascii]
          rwa [List.append_assoc, hpiece] at hgs

/-- All fields fit. -/
theorem Holds.appendFields_fits {fs : List Variable} (hb : Holds size b t) (hsize : size ≤ 2 ^ 31)
    (hfits : (t ++ fieldsText fs).length < size) :
    ∃ b', Asterisk.appendFields size b fs = some b' ∧ Holds size b' (t ++ fieldsText fs) := by
  induction fs generalizing b t with
  | nil =>
    refine ⟨b, rfl, ?_⟩
    rwa [fieldsText, List.append_nil]
  | cons f next ih =>
    have hlen : (t ++ fieldsText (f :: next)).length =
        t.length + ((fieldPiece f next).length + (fieldsText next).length) := by
      simp [fieldsText]
    have hlt := hfits
    rw [hlen] at hlt
    have hgoes : ¬ size - b.off ≤ (fieldPiece f next).length := by
      rw [hb.off]
      omega
    rw [fieldsText, ← List.append_assoc] at hfits ⊢
    obtain ⟨b', hb', hholds⟩ := ih (holds_written size (t ++ fieldPiece f next)) hfits
    refine ⟨b', ?_, hholds⟩
    rw [Asterisk.appendFields, hb.snprintf_eq, if_neg (by omega), Option.bind_eq_bind,
      Option.bind_some]
    simp only [if_neg hgoes]
    rw [hb.off, ← List.length_append]
    exact hb'

/-! ## What is sent -/

/-- The function returns without a request, or the text it passes on is decoded as the array of the
arguments. -/
def SentExactly (args : List Arg) (r : Option Sends) : Prop :=
  r = some .nothing ∨
    ∃ proc text, r = some (.call proc text) ∧ decode text = some (argsValue args)

/-- The arguments of `realtime_tarantool`. -/
def realtimeArgs (table : Bytes) (fields : List Variable) : List Arg :=
  .str table :: fields.flatMap fun f => [.str f.name, .str f.value]

/-- The arguments of `update_tarantool`. -/
def updateArgs (table keyfield entity : Bytes) (fields : List Variable) : List Arg :=
  [.str table, .str keyfield, .str entity, .fields fields]

/-- The arguments of `update2_tarantool`. -/
def update2Args (table : Bytes) (lookupFields updateFields : List Variable) : List Arg :=
  [.str table, .fields lookupFields, .fields updateFields]

/-- The arguments of `store_tarantool`. -/
def storeArgs (table : Bytes) (fields : List Variable) : List Arg := [.str table, .fields fields]

/-- The arguments of `destroy_tarantool`. -/
def destroyArgs (table keyfield entity : Bytes) (fields : List Variable) : List Arg :=
  [.str table, .str keyfield, .str entity] ++ if fields = [] then [] else [.fields fields]

/-- The arguments of `tarantool_cdr_log`. -/
def cdrArgs (config : CdrConfig) (cdr : Cdr) : List Arg :=
  [.str (if config.logUniqueid then cdr.uniqueid else []), .str cdr.accountcode, .str cdr.src,
    .str cdr.dst, .str cdr.dcontext, .str cdr.clid, .str cdr.channel, .str cdr.dstchannel,
    .str cdr.lastapp, .str cdr.lastdata, .str (timeString cdr.start), .str (timeString cdr.answer),
    .int cdr.duration.toInt, .int cdr.billsec.toInt, .int cdr.disposition.toInt,
    .str cdr.userfield, .str config.spaceName]

/-- The arguments are kept, and their text fits. -/
def KeptIn (size : ℕ) (args : List Arg) : Prop :=
  (∀ a ∈ args, a.Kept) ∧ (argsText args).length < size

theorem sentExactly_call {args : List Arg} {proc : Bytes} {r : Option Bytes} :
    SentExactly args (r.map (Sends.call proc)) ↔
      ∃ text, r = some text ∧ decode text = some (argsValue args) := by
  constructor
  · rintro (hnothing | ⟨proc', text, hcall, htext⟩)
    · obtain ⟨text, -, heq⟩ := Option.map_eq_some_iff.1 hnothing
      cases heq
    · obtain ⟨text', rfl, heq⟩ := Option.map_eq_some_iff.1 hcall
      cases heq
      exact ⟨_, rfl, htext⟩
  · rintro ⟨text, rfl, htext⟩
    exact Or.inr ⟨proc, text, rfl, htext⟩

/-! ## Objects at the end -/

/-- Fields, and the end of the object and of the array. -/
def closeObject (size : ℕ) (b : Buffer) (fields : List Variable) : Option Bytes := do
  let b ← Asterisk.appendFields size b fields
  let (text, _) ← snprintf size b (ascii "\x7d]")
  some text

/-- The text before an object. -/
def objectHead (as : List Arg) : Bytes := ascii "[" ++ leading as (ascii "\x7b")

theorem leading_append (as : List Arg) (rest more : Bytes) :
    leading as rest ++ more = leading as (rest ++ more) := by
  induction as with
  | nil => rfl
  | cons a as ih => simp [leading, ih]

theorem objectHead_append (as : List Arg) (more : Bytes) :
    objectHead as ++ more = ascii "[" ++ leading as (0x7b :: more) := by
  rw [objectHead, List.append_assoc, leading_append]
  rfl

theorem argsText_fields (as : List Arg) (fields : List Variable) :
    argsText (as ++ [Arg.fields fields]) =
      objectHead as ++ (fieldsText fields ++ ascii "\x7d]") := by
  rw [argsText_concat, objectHead_append]
  simp [Arg.text, ascii]

/-- The texts that are sent: all fields, or the ones before the first one that does not fit. -/
theorem Holds.closeObject {fields : List Variable} (hb : Holds size b t) {text : Bytes}
    (h : closeObject size b fields = some text) :
    text = (t ++ (fieldsText fields ++ ascii "\x7d]")).take (size - 1) ∨
      ∃ gs hs, hs ≠ [] ∧ fields = gs ++ hs ∧
        text = (t ++ (brokenText gs ++ ascii "\x7d]")).take (size - 1) := by
  simp only [Asterisk.closeObject, Option.bind_eq_bind, Option.bind_eq_some_iff,
    Option.some.injEq] at h
  obtain ⟨b', hb', ⟨text', n⟩, hsent, rfl⟩ := h
  rcases hb.appendFields hb' with hall | ⟨gs, hs, hhs, heq, hgs⟩
  · have htext := hall.sent hsent
    rw [List.append_assoc] at htext
    exact Or.inl htext
  · have htext := hgs.sent hsent
    rw [List.append_assoc] at htext
    exact Or.inr ⟨gs, hs, hhs, heq, htext⟩

/-- Arguments that are decoded as they are were kept. -/
theorem Holds.closeObject_back {as : List Arg} {fields : List Variable} (hpos : 0 < size)
    (hb : Holds size b (objectHead as)) {text : Bytes}
    (h : Asterisk.closeObject size b fields = some text)
    (hdecode : decode text = some (argsValue (as ++ [Arg.fields fields]))) :
    KeptIn size (as ++ [Arg.fields fields]) := by
  rcases hb.closeObject h with htext | ⟨gs, hs, hhs, rfl, htext⟩
  · rw [← argsText_fields] at htext
    have hprefix : text <+: argsText (as ++ [Arg.fields fields]) := htext ▸ List.take_prefix _ _
    obtain ⟨hkept, hwhole, -⟩ := decode_back hprefix hdecode
    refine ⟨hkept, ?_⟩
    have hlen := congrArg List.length htext
    rw [hwhole, List.length_take] at hlen
    omega
  · have hprefix : text <+: ascii "[" ++
        leading as (0x7b :: (brokenText gs ++ 0x7d :: ascii "]")) := by
      rw [← objectHead_append, htext]
      exact List.take_prefix _ _
    exact absurd hdecode (decode_broken hhs (.more (by decide) (.last (by decide))) hprefix)

/-- Arguments that are kept are sent as they are. -/
theorem Holds.closeObject_fits {as : List Arg} {fields : List Variable} (hsize : size ≤ 2 ^ 31)
    (hb : Holds size b (objectHead as)) (hkept : KeptIn size (as ++ [Arg.fields fields])) :
    ∃ text, Asterisk.closeObject size b fields = some text ∧
      decode text = some (argsValue (as ++ [Arg.fields fields])) := by
  obtain ⟨hall, hlen⟩ := hkept
  have hwhole := argsText_fields as fields
  have hlens := congrArg List.length hwhole
  simp only [List.length_append] at hlens
  have hclose : (ascii "\x7d]").length = 2 := rfl
  have hfields : (objectHead as ++ fieldsText fields).length < size := by
    rw [List.length_append]
    omega
  obtain ⟨b', hb', hholds⟩ := hb.appendFields_fits hsize hfields
  have htake : (objectHead as ++ fieldsText fields ++ ascii "\x7d]").take (size - 1) =
      argsText (as ++ [Arg.fields fields]) := by
    rw [List.append_assoc, ← hwhole]
    exact List.take_of_length_le (by omega)
  refine ⟨argsText (as ++ [Arg.fields fields]), ?_, decode_argsText hall⟩
  rw [Asterisk.closeObject, hb', Option.bind_eq_bind, Option.bind_some, hholds.snprintf_eq,
    if_neg (by rw [List.length_append]; omega), htake]
  rfl

/-- An array of which the last argument is an object. -/
def objectText (size : ℕ) (head : Bytes) (fields : List Variable) : Option Bytes := do
  let b ← Asterisk.append size ⟨[], 0⟩ head
  Asterisk.closeObject size b fields

theorem objectText_iff {as : List Arg} {head : Bytes} (hhead : head = objectHead as)
    (hpos : 0 < size) (hsize : size ≤ 2 ^ 31) (fields : List Variable) :
    (∃ text, objectText size head fields = some text ∧
        decode text = some (argsValue (as ++ [Arg.fields fields]))) ↔
      KeptIn size (as ++ [Arg.fields fields]) := by
  rw [hhead]
  constructor
  · rintro ⟨text, h, hdecode⟩
    obtain ⟨b, hb, htext⟩ := Option.bind_eq_some_iff.1 h
    exact ((holds_empty hpos).append hb).closeObject_back hpos htext hdecode
  · intro hkept
    have hlens := congrArg List.length (argsText_fields as fields)
    have hlen := hkept.2
    rw [hlens, List.length_append] at hlen
    have hhead : ([] ++ objectHead as).length < size := by
      rw [List.nil_append]
      omega
    obtain ⟨b, hb, hholds⟩ := (holds_empty hpos).append_fits hsize hhead
    rw [objectText, hb]
    exact hholds.closeObject_fits hsize hkept

/-! ## The functions -/

theorem updateTarantool_eq (table keyfield entity : Bytes) {fields : List Variable}
    (hne : fields ≠ []) :
    updateTarantool table keyfield entity fields =
      (objectText jsonSize (objectHead [.str table, .str keyfield, .str entity]) fields).map
        (Sends.call (ascii "ast_realtime_update")) := by
  have hhead : objectHead [.str table, .str keyfield, .str entity] = ascii "[" ++ quoted table ++
      ascii ", " ++ quoted keyfield ++ ascii ", " ++ quoted entity ++ ascii ", \x7b" := by
    simp [objectHead, leading, Arg.text, ascii]
  rw [updateTarantool, if_neg hne, objectText, hhead]
  simp only [Asterisk.closeObject, Option.bind_eq_bind, Option.map_bind, Function.comp_def,
    Option.map_some]

theorem storeTarantool_eq (table : Bytes) {fields : List Variable} (hne : fields ≠ []) :
    storeTarantool table fields =
      (objectText jsonSize (objectHead [.str table]) fields).map
        (Sends.call (ascii "ast_realtime_store")) := by
  have hhead : objectHead [.str table] = ascii "[" ++ quoted table ++ ascii ", \x7b" := by
    simp [objectHead, leading, Arg.text, ascii]
  rw [storeTarantool, if_neg hne, objectText, hhead]
  simp only [Asterisk.closeObject, Option.bind_eq_bind, Option.map_bind, Function.comp_def,
    Option.map_some]

theorem update_iff (table keyfield entity : Bytes) (fields : List Variable) :
    SentExactly (updateArgs table keyfield entity fields)
        (updateTarantool table keyfield entity fields) ↔
      fields = [] ∨ KeptIn jsonSize (updateArgs table keyfield entity fields) := by
  by_cases hnil : fields = []
  · rw [updateTarantool, if_pos hnil]
    exact iff_of_true (Or.inl rfl) (Or.inl hnil)
  · rw [updateTarantool_eq _ _ _ hnil, sentExactly_call, or_iff_right hnil]
    exact objectText_iff rfl (by decide) (by decide) fields

theorem store_iff (table : Bytes) (fields : List Variable) :
    SentExactly (storeArgs table fields) (storeTarantool table fields) ↔
      fields = [] ∨ KeptIn jsonSize (storeArgs table fields) := by
  by_cases hnil : fields = []
  · rw [storeTarantool, if_pos hnil]
    exact iff_of_true (Or.inl rfl) (Or.inl hnil)
  · rw [storeTarantool_eq _ hnil, sentExactly_call, or_iff_right hnil]
    exact objectText_iff rfl (by decide) (by decide) fields

/-- A text that is written at once. -/
theorem snprintf_iff (hpos : 0 < size) (hsize : size ≤ 2 ^ 31) {as : List Arg} {a : Arg}
    {more : List Arg} :
    (∃ text, (snprintf size ⟨[], 0⟩ (argsText (as ++ [a]))).map Prod.fst = some text ∧
        decode text = some (argsValue (as ++ a :: more))) ↔
      more = [] ∧ KeptIn size (as ++ [a]) := by
  rw [(holds_empty hpos).snprintf_eq, List.nil_append]
  constructor
  · rintro ⟨text, htext, hdecode⟩
    obtain ⟨⟨text', n⟩, hsome, rfl⟩ := Option.map_eq_some_iff.1 htext
    split_ifs at hsome
    cases hsome
    obtain ⟨hkept, hwhole, hmore⟩ := decode_back (List.take_prefix _ _) hdecode
    refine ⟨hmore, hkept, ?_⟩
    have hlen := congrArg List.length hwhole
    rw [List.length_take] at hlen
    omega
  · rintro ⟨rfl, hkept, hlen⟩
    refine ⟨argsText (as ++ [a]), ?_, decode_argsText hkept⟩
    rw [if_neg (by simp only [List.length_nil]; omega), List.take_of_length_le (by omega)]
    rfl

theorem threeStrings_eq (a b c : Bytes) :
    threeStrings a b c = argsText ([.str a, .str b] ++ [.str c]) := by
  simp [threeStrings, argsText, commas, Arg.text]

/-- The procedure and the text. -/
theorem snprintf_call (size : ℕ) (piece proc : Bytes) :
    (do
      let (text, _) ← snprintf size ⟨[], 0⟩ piece
      some (Sends.call proc text)) =
      ((snprintf size ⟨[], 0⟩ piece).map Prod.fst).map (Sends.call proc) := by
  cases snprintf size ⟨[], 0⟩ piece <;> rfl

theorem destroy_iff (table keyfield entity : Bytes) (fields : List Variable) :
    SentExactly (destroyArgs table keyfield entity fields)
        (destroyTarantool table keyfield entity fields) ↔
      fields = [] ∧ KeptIn destroySize (destroyArgs table keyfield entity fields) := by
  have hargs : destroyArgs table keyfield entity fields = [.str table, .str keyfield] ++
      .str entity :: if fields = [] then [] else [Arg.fields fields] := rfl
  rw [destroyTarantool, snprintf_call, sentExactly_call, threeStrings_eq, hargs,
    snprintf_iff (by decide) (by decide)]
  by_cases hnil : fields = []
  · rw [if_pos hnil]
    exact and_congr_left fun _ => iff_of_true rfl hnil
  · rw [if_neg hnil]
    exact iff_of_false (fun h => List.cons_ne_nil _ _ h.1) fun h => hnil h.1

/-! ## Times -/

theorem length_decimal_le {n w : ℕ} (hn : n < 10 ^ (w + 1)) : (decimal n).length ≤ w + 1 := by
  rw [decimal]
  split_ifs with hzero
  · simp
  · rw [List.length_map, List.length_reverse]
    exact (Nat.digits_length_le_iff (by norm_num) n).2 hn

/-- No time is cut off. -/
theorem timeText_eq (tv : Timeval) : timeText tv = timeString tv := by
  rw [timeText]
  refine List.take_of_length_le ?_
  rw [timeString]
  split_ifs
  · have hsec : (decimal tv.sec.toInt.toNat).length ≤ 18 + 1 := by
      refine length_decimal_le ?_
      have := tv.sec.toInt_lt
      omega
    have husec : (sixDigits tv.usec).length ≤ 6 := by
      have hlt := tv.usec_lt
      have hdigits : (decimal tv.usec).length ≤ 5 + 1 := length_decimal_le (by omega)
      rw [sixDigits, List.length_append, List.length_replicate]
      omega
    have hpoint : (ascii ".").length = 1 := rfl
    rw [List.length_append, List.length_append]
    omega
  · exact Nat.zero_le _

theorem cdrText_eq (config : CdrConfig) (cdr : Cdr) :
    cdrText config cdr = argsText ((cdrArgs config cdr).dropLast ++ [.str config.spaceName]) := by
  simp only [cdrText, timeText_eq]
  rfl

theorem cdr_iff (config : CdrConfig) (cdr : Cdr) :
    SentExactly (cdrArgs config cdr) (tarantoolCdrLog config cdr) ↔
      KeptIn jsonSize (cdrArgs config cdr) := by
  have hargs : cdrArgs config cdr =
      (cdrArgs config cdr).dropLast ++ [.str config.spaceName] := rfl
  rw [tarantoolCdrLog, snprintf_call, sentExactly_call, cdrText_eq, hargs]
  exact (snprintf_iff (by decide) (by decide)).trans (and_iff_right rfl)

/-! ## Looking up -/

/-- Only the first field is sent. -/
theorem realtime_iff (table : Bytes) (f : Variable) (next : List Variable) :
    SentExactly (realtimeArgs table (f :: next)) (realtimeRequest table (f :: next)) ↔
      (realtimeSize ≤ (threeStrings table f.name f.value).length ∧
          (threeStrings table f.name f.value).length < 2 ^ 31) ∨
        next = [] ∧ KeptIn realtimeSize (realtimeArgs table [f]) := by
  have hargs : realtimeArgs table (f :: next) = [.str table, .str f.name] ++
      .str f.value :: next.flatMap fun f => [.str f.name, .str f.value] := rfl
  have hmore : (next.flatMap fun f => [Arg.str f.name, Arg.str f.value]) = [] ↔ next = [] := by
    cases next <;> simp
  have hone : argsText (realtimeArgs table [f]) = threeStrings table f.name f.value :=
    (threeStrings_eq _ _ _).symm
  have hstart := (holds_empty (show 0 < realtimeSize by decide)).snprintf_eq
    (threeStrings table f.name f.value)
  by_cases hlong : realtimeSize ≤ (threeStrings table f.name f.value).length
  · have hnot : ¬ (next = [] ∧ KeptIn realtimeSize (realtimeArgs table [f])) := by
      rintro ⟨-, -, hlen⟩
      rw [hone] at hlen
      omega
    rw [or_iff_left hnot, and_iff_right hlong, realtimeRequest]
    by_cases hhuge : 2 ^ 31 ≤ (threeStrings table f.name f.value).length
    · rw [hstart, if_pos (Or.inr hhuge)]
      refine iff_of_false ?_ (not_lt.2 hhuge)
      rintro (h | ⟨proc, text, h, -⟩) <;> cases h
    · rw [hstart, if_neg (by simp only [List.length_nil]; omega), Option.bind_eq_bind,
        Option.bind_some]
      simp only [if_pos hlong]
      exact iff_of_true (Or.inl rfl) (not_le.1 hhuge)
  · have hshort : ¬ (realtimeSize ≤ (threeStrings table f.name f.value).length ∧
        (threeStrings table f.name f.value).length < 2 ^ 31) := fun h => hlong h.1
    have hsent : realtimeRequest table (f :: next) =
        ((snprintf realtimeSize ⟨[], 0⟩ (threeStrings table f.name f.value)).map Prod.fst).map
          (Sends.call (ascii "ast_realtime_get")) := by
      rw [realtimeRequest, ← snprintf_call, hstart]
      split_ifs
      · rfl
      · rw [Option.bind_eq_bind, Option.bind_some]
        exact if_neg hlong
    rw [or_iff_right hshort, hsent, sentExactly_call, threeStrings_eq, hargs,
      snprintf_iff (by decide) (by decide), hmore]
    rfl

/-! ## Two objects -/

theorem objectHead_fields (as : List Arg) (fields : List Variable) :
    objectHead (as ++ [Arg.fields fields]) =
      objectHead as ++ fieldsText fields ++ ascii "\x7d, \x7b" := by
  have hleading : leading (as ++ [Arg.fields fields]) (ascii "\x7b") =
      leading as (0x7b :: (fieldsText fields ++ ascii "\x7d, \x7b")) := by
    induction as with
    | nil => simp [leading, Arg.text, ascii]
    | cons a as ih => simp [leading, ih]
  rw [List.append_assoc, objectHead_append, objectHead, hleading]

/-- The text of an array that ends with two objects. -/
def twoObjectsText (size : ℕ) (head : Bytes) (lookupFields updateFields : List Variable) :
    Option Bytes := do
  let b ← Asterisk.append size ⟨[], 0⟩ head
  let b ← Asterisk.appendFields size b lookupFields
  let b ← Asterisk.append size b (ascii "\x7d, \x7b")
  Asterisk.closeObject size b updateFields

/-- Fields are lost at the end of the first object, whatever is written behind it. -/
theorem twoObjectsText_iff (as : List Arg) (hpos : 0 < size) (hsize : size ≤ 2 ^ 31)
    (lookupFields updateFields : List Variable) :
    (∃ text, twoObjectsText size (objectHead as) lookupFields updateFields = some text ∧
        decode text =
          some (argsValue (as ++ [Arg.fields lookupFields] ++ [Arg.fields updateFields]))) ↔
      KeptIn size (as ++ [Arg.fields lookupFields] ++ [Arg.fields updateFields]) := by
  constructor
  · rintro ⟨text, h, hdecode⟩
    obtain ⟨b, hb, h⟩ := Option.bind_eq_some_iff.1 h
    obtain ⟨b₁, hb₁, h⟩ := Option.bind_eq_some_iff.1 h
    obtain ⟨b₂, hb₂, htext⟩ := Option.bind_eq_some_iff.1 h
    rcases ((holds_empty hpos).append hb).appendFields hb₁ with hall | ⟨gs, hs, hhs, rfl, hgs⟩
    · have hholds := hall.append hb₂
      rw [List.nil_append, ← objectHead_fields] at hholds
      exact hholds.closeObject_back hpos htext hdecode
    · obtain ⟨end', hend, heq⟩ : ∃ end', Follows end' ∧
          text =
            (objectHead as ++ brokenText gs ++ ascii "\x7d, \x7b" ++ end').take (size - 1) := by
        have hclose : Between (ascii "\x7d]") := .more (by decide) (.last (by decide))
        rcases (hgs.append hb₂).closeObject htext with hcut | ⟨us, vs, -, -, hcut⟩
        · exact ⟨_, follows_fieldsText updateFields hclose, hcut⟩
        · exact ⟨_, follows_brokenText us hclose, hcut⟩
      have hprefix : text <+: ascii "[" ++ leading as (0x7b :: (brokenText gs ++
          0x7d :: (ascii ", \x7b" ++ end'))) := by
        rw [← objectHead_append, heq]
        have hsame : objectHead as ++ (brokenText gs ++ 0x7d :: (ascii ", \x7b" ++ end')) =
            objectHead as ++ brokenText gs ++ ascii "\x7d, \x7b" ++ end' := by
          simp [ascii]
        rw [hsame]
        exact List.take_prefix _ _
      have hbetween : Between (0x7d :: (ascii ", \x7b" ++ end')) :=
        .more (by decide) (.more (by decide) (.more (by decide) (hend 0x7b (by decide))))
      rw [List.append_assoc] at hdecode
      exact absurd hdecode (decode_broken hhs hbetween hprefix)
  · intro hkept
    have hlens := congrArg List.length
      (argsText_fields (as ++ [Arg.fields lookupFields]) updateFields)
    have hlen := hkept.2
    rw [hlens, List.length_append, objectHead_fields] at hlen
    simp only [List.length_append] at hlen
    have hhead : ([] ++ objectHead as).length < size := by
      rw [List.nil_append]
      omega
    obtain ⟨b, hb, hholds⟩ := (holds_empty hpos).append_fits hsize hhead
    rw [List.nil_append] at hholds
    have hfirst : (objectHead as ++ fieldsText lookupFields).length < size := by
      rw [List.length_append]
      omega
    obtain ⟨b₁, hb₁, hholds₁⟩ := hholds.appendFields_fits hsize hfirst
    have hsecond :
        (objectHead as ++ fieldsText lookupFields ++ ascii "\x7d, \x7b").length < size := by
      rw [List.length_append, List.length_append]
      omega
    obtain ⟨b₂, hb₂, hholds₂⟩ := hholds₁.append_fits hsize hsecond
    rw [← objectHead_fields] at hholds₂
    rw [twoObjectsText, hb, Option.bind_eq_bind, Option.bind_some, hb₁]
    simp only [Option.bind_some, hb₂]
    exact hholds₂.closeObject_fits hsize hkept

theorem update2Tarantool_eq (table : Bytes) {lookupFields updateFields : List Variable}
    (hne : ¬ (lookupFields = [] ∨ updateFields = [])) :
    update2Tarantool table lookupFields updateFields =
      (twoObjectsText jsonSize (objectHead [.str table]) lookupFields updateFields).map
        (Sends.call (ascii "ast_realtime_update2")) := by
  have hhead : objectHead [.str table] = ascii "[" ++ quoted table ++ ascii ", \x7b" := by
    simp [objectHead, leading, Arg.text, ascii]
  rw [update2Tarantool, if_neg hne, twoObjectsText, hhead]
  simp only [Asterisk.closeObject, Option.bind_eq_bind, Option.map_bind, Function.comp_def,
    Option.map_some]

theorem update2_iff (table : Bytes) (lookupFields updateFields : List Variable) :
    SentExactly (update2Args table lookupFields updateFields)
        (update2Tarantool table lookupFields updateFields) ↔
      (lookupFields = [] ∨ updateFields = []) ∨
        KeptIn jsonSize (update2Args table lookupFields updateFields) := by
  by_cases hnil : lookupFields = [] ∨ updateFields = []
  · rw [update2Tarantool, if_pos hnil]
    exact iff_of_true (Or.inl rfl) (Or.inl hnil)
  · rw [update2Tarantool_eq _ hnil, sentExactly_call, or_iff_right hnil]
    exact twoObjectsText_iff [.str table] (by decide) (by decide) lookupFields updateFields

/-! ## Every function -/

/-- **What the functions send is the array of their arguments exactly if all strings can be written
as they are, no object has a name twice and the text fits its buffer**; `realtime_tarantool` also
returns without a request where its text is too long, and sends one field only, and
`destroy_tarantool` sends none. -/
theorem sentExactly_iff (table keyfield entity : Bytes)
    (fields lookupFields updateFields : List Variable) (config : CdrConfig) (cdr : Cdr) :
    (SentExactly (realtimeArgs table fields) (realtimeRequest table fields) ↔
      ∀ f next, fields = f :: next →
        (realtimeSize ≤ (threeStrings table f.name f.value).length ∧
            (threeStrings table f.name f.value).length < 2 ^ 31) ∨
          next = [] ∧ KeptIn realtimeSize (realtimeArgs table [f])) ∧
    (SentExactly (updateArgs table keyfield entity fields)
        (updateTarantool table keyfield entity fields) ↔
      fields = [] ∨ KeptIn jsonSize (updateArgs table keyfield entity fields)) ∧
    (SentExactly (update2Args table lookupFields updateFields)
        (update2Tarantool table lookupFields updateFields) ↔
      (lookupFields = [] ∨ updateFields = []) ∨
        KeptIn jsonSize (update2Args table lookupFields updateFields)) ∧
    (SentExactly (storeArgs table fields) (storeTarantool table fields) ↔
      fields = [] ∨ KeptIn jsonSize (storeArgs table fields)) ∧
    (SentExactly (destroyArgs table keyfield entity fields)
        (destroyTarantool table keyfield entity fields) ↔
      fields = [] ∧ KeptIn destroySize (destroyArgs table keyfield entity fields)) ∧
    (SentExactly (cdrArgs config cdr) (tarantoolCdrLog config cdr) ↔
      KeptIn jsonSize (cdrArgs config cdr)) := by
  refine ⟨?_, update_iff table keyfield entity fields,
    update2_iff table lookupFields updateFields, store_iff table fields,
    destroy_iff table keyfield entity fields, cdr_iff config cdr⟩
  cases fields with
  | nil => exact iff_of_true (Or.inl rfl) (by simp)
  | cons f next =>
    rw [realtime_iff]
    simp

/-- A name in quotes before a number, as callers are often given. -/
theorem not_sentExactly_callerId :
    ¬ SentExactly (storeArgs (ascii "sippeers") [⟨ascii "callerid", ascii "\"Ann\" <101>"⟩])
      (storeTarantool (ascii "sippeers") [⟨ascii "callerid", ascii "\"Ann\" <101>"⟩]) := by
  rw [store_iff]
  rintro (hnil | ⟨hkept, -⟩)
  · cases hnil
  · have hfields := (hkept _ (List.mem_cons_of_mem _ List.mem_cons_self)).1
    exact absurd (hfields.1 _ List.mem_cons_self).2 (by decide +kernel)

end Asterisk

end VoipBackend
