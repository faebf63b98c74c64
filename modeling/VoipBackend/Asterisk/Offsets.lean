import VoipBackend.Asterisk.Realtime
import VoipBackend.Wire.Sizes

/-!
# Do the Asterisk modules stay inside their buffers?

`res_config_tarantool.c` adds to its position in the buffer what `snprintf` returns, which is the
length of the whole piece.  In the loops over the fields it looks first whether the piece fitted;
before and between the loops it does not.  `res_tarantool.c` encodes the body of a request in a
buffer without asking whether the strings fit.

`staysIn_iff` says for which arguments all positions, and the body, are inside the buffers.
-/

namespace VoipBackend

open Library

namespace Asterisk

open Msgpuck hiding mpDecodeUint

/-! ## The positions -/

/-- What `snprintf` returns for a piece: its length, or -1 if that is more than an `int` holds. -/
def printed (piece : Bytes) : ℤ := if piece.length < 2 ^ 31 then piece.length else -1

/-- The loop over the fields: the positions at which it prints, and the one behind it. -/
def fieldOffsets : ℤ → List Variable → List ℤ × ℤ
  | off, [] => ([], off)
  | off, f :: next =>
      let n := printed (fieldPiece f next)
      if jsonSize - off ≤ n then ([off], off)
      else
        let (offs, behind) := fieldOffsets (off + n) next
        (off :: offs, behind)

/-- The positions of a text with one object: before the first piece, in the loop and behind it. -/
def objectOffsets (first : Bytes) (fields : List Variable) : List ℤ :=
  let (offs, behind) := fieldOffsets (0 + printed first) fields
  0 :: (offs ++ [behind])

/-- `"[\"%s\", \"%s\", \"%s\", \x7b"`. -/
def updatePiece (table keyfield entity : Bytes) : Bytes :=
  ascii "[" ++ quoted table ++ ascii ", " ++ quoted keyfield ++ ascii ", " ++ quoted entity ++
    ascii ", \x7b"

/-- `"[\"%s\", \x7b"`. -/
def tablePiece (table : Bytes) : Bytes := ascii "[" ++ quoted table ++ ascii ", \x7b"

/-- The positions in `update_tarantool`. -/
def updateOffsets (table keyfield entity : Bytes) (fields : List Variable) : List ℤ :=
  if fields = [] then [] else objectOffsets (updatePiece table keyfield entity) fields

/-- The positions in `store_tarantool`. -/
def storeOffsets (table : Bytes) (fields : List Variable) : List ℤ :=
  if fields = [] then [] else objectOffsets (tablePiece table) fields

/-- The positions in `update2_tarantool`. -/
def update2Offsets (table : Bytes) (lookupFields updateFields : List Variable) : List ℤ :=
  if lookupFields = [] ∨ updateFields = [] then []
  else
    let (offs, off) := fieldOffsets (0 + printed (tablePiece table)) lookupFields
    let (offs', behind) := fieldOffsets (off + printed (ascii "\x7d, \x7b")) updateFields
    0 :: (offs ++ off :: (offs' ++ [behind]))

/-- A position in the buffer, or at its end. -/
def Inside (off : ℤ) : Prop := 0 ≤ off ∧ off ≤ jsonSize

instance (off : ℤ) : Decidable (Inside off) := inferInstanceAs (Decidable (_ ∧ _))

/-- All positions are in the buffer. -/
def StaysIn (offs : List ℤ) : Prop := ∀ off ∈ offs, Inside off

/-! ## The bodies -/

/-- The body `ast_tarantool_call` encodes, if it is told the procedure and has a connection. -/
def callEncoded (sock : Option Socket) (procName paramsJson : Option Bytes) : Option Bytes :=
  match procName, sock with
  | some procName, some _ =>
      some (mpEncodeMap 2 ++ mpEncodeUint iprotoFunctionName ++ RtpEngine.encodeStr procName ++
        mpEncodeUint iprotoTuple ++
        if paramsJson.getD [] = [] then mpEncodeArray 0
        else mpEncodeArray 1 ++ RtpEngine.encodeStr (paramsJson.getD []))
  | _, _ => none

/-- The body `ast_tarantool_eval` encodes, if it is told the expression and has a connection. -/
def evalEncoded (sock : Option Socket) (expr : Option Bytes) : Option Bytes :=
  match expr, sock with
  | some expr, some _ =>
      some (mpEncodeMap 2 ++ mpEncodeUint iprotoExpr ++ RtpEngine.encodeStr expr ++
        mpEncodeUint iprotoTuple ++ mpEncodeArray 0)
  | _, _ => none

/-- What is encoded fits the buffer for it. -/
def BodyFits (body : Option Bytes) : Prop := ∀ b ∈ body, b.length ≤ bodySize

/-! ## What the arguments have to be -/

/-- What `snprintf` returns for the pieces of the loop. -/
def counts : List Variable → List ℤ
  | [] => []
  | f :: next => printed (fieldPiece f next) :: counts next

/-- There is room for the first `k` pieces, one after another. -/
def HasRoom (off : ℤ) (ns : List ℤ) (k : ℕ) : Prop :=
  ∀ j, 0 < j → j ≤ k → off + (ns.take j).sum < jsonSize

/-- As long as the pieces fit, the ones that are too long even for an `int` do not take away more
than there is. -/
def NeverBelow (off : ℤ) (ns : List ℤ) : Prop :=
  ∀ k ≤ ns.length, HasRoom off ns k → 0 ≤ off + (ns.take k).sum

/-- The position behind the pieces before the first one that does not fit. -/
def Behind (off : ℤ) (ns : List ℤ) (behind : ℤ) : Prop :=
  ∃ k ≤ ns.length, HasRoom off ns k ∧ (k < ns.length → ¬ HasRoom off ns (k + 1)) ∧
    behind = off + (ns.take k).sum

/-- The first piece fits the buffer, and the fields take nothing away. -/
def ObjectFits (first : Bytes) (fields : List Variable) : Prop :=
  first.length ≤ jsonSize ∧ NeverBelow first.length (counts fields)

/-- There is also room for four bytes between the objects. -/
def ObjectsFit (first : Bytes) (lookupFields updateFields : List Variable) : Prop :=
  ObjectFits first lookupFields ∧ ∀ off, Behind first.length (counts lookupFields) off →
    off + 4 ≤ jsonSize ∧ NeverBelow (off + 4) (counts updateFields)

/-- The length of the body of a call. -/
def callSize (procName : Bytes) (paramsJson : Option Bytes) : ℕ :=
  4 + RtpEngine.cutSize procName +
    if paramsJson.getD [] = [] then 0 else RtpEngine.cutSize (paramsJson.getD [])

/-! ## One loop -/

theorem hasRoom_zero (off : ℤ) (ns : List ℤ) : HasRoom off ns 0 := fun _ hpos hle =>
  absurd hle (not_le.2 hpos)

theorem neverBelow_nil (off : ℤ) : NeverBelow off [] ↔ 0 ≤ off := by
  simp [NeverBelow, hasRoom_zero]

theorem hasRoom_succ (off n : ℤ) (ns : List ℤ) (k : ℕ) :
    HasRoom off (n :: ns) (k + 1) ↔ off + n < jsonSize ∧ HasRoom (off + n) ns k := by
  constructor
  · intro h
    refine ⟨by simpa using h 1 (by omega) (by omega), fun j _ hj => ?_⟩
    have := h (j + 1) (by omega) (by omega)
    rwa [List.take_succ_cons, List.sum_cons, ← add_assoc] at this
  · rintro ⟨hfirst, h⟩ j hpos hj
    cases j with
    | zero => exact absurd hpos (lt_irrefl 0)
    | succ j =>
      rw [List.take_succ_cons, List.sum_cons, ← add_assoc]
      rcases Nat.eq_zero_or_pos j with rfl | hj'
      · simpa using hfirst
      · exact h j hj' (by omega)

/-- A piece that does not fit: the loop ends. -/
theorem neverBelow_stop {off n : ℤ} (h : jsonSize - off ≤ n) (ns : List ℤ) :
    NeverBelow off (n :: ns) ↔ 0 ≤ off := by
  constructor
  · intro hnever
    simpa using hnever 0 (by omega) (hasRoom_zero off _)
  · intro hoff k _ hroom
    cases k with
    | zero => simpa using hoff
    | succ k =>
      have := ((hasRoom_succ off n ns k).1 hroom).1
      omega

/-- A piece that fits: the loop goes on behind it. -/
theorem neverBelow_next {off n : ℤ} (h : ¬ jsonSize - off ≤ n) (ns : List ℤ) :
    NeverBelow off (n :: ns) ↔ 0 ≤ off ∧ NeverBelow (off + n) ns := by
  have hfirst : off + n < jsonSize := by omega
  constructor
  · intro hnever
    refine ⟨by simpa using hnever 0 (by omega) (hasRoom_zero off _), fun k hk hroom => ?_⟩
    have := hnever (k + 1) (Nat.succ_le_succ hk) ((hasRoom_succ off n ns k).2 ⟨hfirst, hroom⟩)
    rwa [List.take_succ_cons, List.sum_cons, ← add_assoc] at this
  · rintro ⟨hoff, hnever⟩ k hk hroom
    cases k with
    | zero => simpa using hoff
    | succ k =>
      rw [List.take_succ_cons, List.sum_cons, ← add_assoc]
      exact hnever k (Nat.le_of_succ_le_succ hk) ((hasRoom_succ off n ns k).1 hroom).2

/-- **The positions of a loop**, and the one behind it. -/
theorem staysIn_fieldOffsets (off : ℤ) (fields : List Variable) :
    StaysIn ((fieldOffsets off fields).1 ++ [(fieldOffsets off fields).2]) ↔
      off ≤ jsonSize ∧ NeverBelow off (counts fields) := by
  induction fields generalizing off with
  | nil => simp [fieldOffsets, counts, neverBelow_nil, StaysIn, Inside, and_comm]
  | cons f next ih =>
    rw [fieldOffsets, counts]
    simp only
    by_cases hstop : jsonSize - off ≤ printed (fieldPiece f next)
    · rw [if_pos hstop, neverBelow_stop hstop]
      simp [StaysIn, Inside, and_comm]
    · have hih := ih (off + printed (fieldPiece f next))
      rw [if_neg hstop, neverBelow_next hstop]
      simp only [StaysIn, List.cons_append, List.forall_mem_cons] at hih ⊢
      have hnext : off + printed (fieldPiece f next) ≤ jsonSize := by omega
      rw [hih, Inside, and_iff_right hnext, and_assoc, and_left_comm]

/-- The position behind a loop. -/
theorem behind_iff (off behind : ℤ) (fields : List Variable) :
    Behind off (counts fields) behind ↔ behind = (fieldOffsets off fields).2 := by
  induction fields generalizing off with
  | nil => simp [Behind, counts, fieldOffsets, hasRoom_zero]
  | cons f next ih =>
    rw [fieldOffsets, counts]
    simp only
    have hzero := hasRoom_zero off (printed (fieldPiece f next) :: counts next)
    by_cases hstop : jsonSize - off ≤ printed (fieldPiece f next)
    · rw [if_pos hstop]
      constructor
      · rintro ⟨k, -, hroom, -, rfl⟩
        cases k with
        | zero => simp
        | succ k =>
          have := ((hasRoom_succ off _ _ k).1 hroom).1
          omega
      · rintro rfl
        refine ⟨0, Nat.zero_le _, hzero, fun _ hroom => ?_, by simp⟩
        have := ((hasRoom_succ behind _ _ 0).1 hroom).1
        omega
    · have hfirst : off + printed (fieldPiece f next) < jsonSize := by omega
      rw [if_neg hstop]
      simp only
      rw [← ih]
      constructor
      · rintro ⟨k, hk, hroom, hlast, rfl⟩
        cases k with
        | zero =>
          have hone := (hasRoom_succ off _ (counts next) 0).2 ⟨hfirst, hasRoom_zero _ _⟩
          exact absurd hone (hlast (Nat.succ_pos _))
        | succ k =>
          refine ⟨k, Nat.le_of_succ_le_succ hk, ((hasRoom_succ off _ _ k).1 hroom).2, ?_, ?_⟩
          · intro hlt hnext
            exact hlast (Nat.succ_lt_succ hlt) ((hasRoom_succ off _ _ (k + 1)).2 ⟨hfirst, hnext⟩)
          · rw [List.take_succ_cons, List.sum_cons, add_assoc]
      · rintro ⟨k, hk, hroom, hlast, rfl⟩
        refine ⟨k + 1, Nat.succ_le_succ hk, (hasRoom_succ off _ _ k).2 ⟨hfirst, hroom⟩, ?_, ?_⟩
        · intro hlt hnext
          exact hlast (Nat.lt_of_succ_lt_succ hlt) ((hasRoom_succ off _ _ (k + 1)).1 hnext).2
        · rw [List.take_succ_cons, List.sum_cons, add_assoc]

/-! ## The functions -/

/-- A first piece that fits is counted by its length. -/
theorem printed_fits_iff (first : Bytes) (ns : List ℤ) :
    (printed first ≤ jsonSize ∧ NeverBelow (printed first) ns) ↔
      first.length ≤ jsonSize ∧ NeverBelow first.length ns := by
  unfold printed
  split_ifs with hint
  · rw [Nat.cast_le]
  · refine iff_of_false ?_ ?_
    · rintro ⟨-, hnever⟩
      have := hnever 0 (Nat.zero_le _) (hasRoom_zero _ ns)
      simp at this
    · rintro ⟨hle, -⟩
      rw [jsonSize] at hle
      omega

theorem staysIn_objectOffsets (first : Bytes) (fields : List Variable) :
    StaysIn (objectOffsets first fields) ↔ ObjectFits first fields := by
  have hloop := staysIn_fieldOffsets (printed first) (fields)
  rw [printed_fits_iff] at hloop
  rw [ObjectFits, ← hloop]
  simp [objectOffsets, StaysIn, Inside]

theorem staysIn_updateOffsets (table keyfield entity : Bytes) (fields : List Variable) :
    StaysIn (updateOffsets table keyfield entity fields) ↔
      fields = [] ∨ ObjectFits (updatePiece table keyfield entity) fields := by
  rw [← staysIn_objectOffsets, updateOffsets]
  split_ifs with hfields <;> simp [hfields, StaysIn]

theorem staysIn_storeOffsets (table : Bytes) (fields : List Variable) :
    StaysIn (storeOffsets table fields) ↔ fields = [] ∨ ObjectFits (tablePiece table) fields := by
  rw [← staysIn_objectOffsets, storeOffsets]
  split_ifs with hfields <;> simp [hfields, StaysIn]

/-- The positions of both loops, after position 0. -/
theorem staysIn_two {offs offs' : List ℤ} {off : ℤ} :
    StaysIn (0 :: (offs ++ off :: offs')) ↔ StaysIn (offs ++ [off]) ∧ StaysIn offs' := by
  have hzero : Inside 0 := by decide
  simp only [StaysIn, List.forall_mem_cons, List.forall_mem_append, List.not_mem_nil,
    IsEmpty.forall_iff, implies_true, true_and, and_assoc, and_iff_right hzero]

theorem staysIn_update2Offsets (table : Bytes) (lookupFields updateFields : List Variable) :
    StaysIn (update2Offsets table lookupFields updateFields) ↔
      (lookupFields = [] ∨ updateFields = []) ∨
        ObjectsFit (tablePiece table) lookupFields updateFields := by
  rw [update2Offsets]
  split_ifs with hempty
  · simp [hempty, StaysIn]
  · have hlookup := staysIn_fieldOffsets (printed (tablePiece table)) lookupFields
    rw [printed_fits_iff] at hlookup
    have hfour : printed (ascii "\x7d, \x7b") = 4 := rfl
    rw [or_iff_right hempty, ObjectsFit, ObjectFits, ← hlookup]
    simp only [zero_add, hfour]
    rw [staysIn_two, staysIn_fieldOffsets _ updateFields]
    refine and_congr_right fun hstays => ?_
    obtain ⟨hfirst, -⟩ := hlookup.1 hstays
    have hprinted : printed (tablePiece table) = (tablePiece table).length := by
      rw [jsonSize] at hfirst
      exact if_pos (by omega)
    simp only [hprinted, behind_iff, forall_eq]

/-! ## The positions and the texts -/

theorem inside_of_snprintf {b : Buffer} {piece text : Bytes} {n : ℕ}
    (h : snprintf jsonSize b piece = some (text, n)) : Inside b.off ∧ (n : ℤ) = printed piece := by
  unfold snprintf at h
  split_ifs at h with hnone hfull
  all_goals
    obtain ⟨-, rfl⟩ := Prod.mk.inj (Option.some.inj h)
    rw [not_or, not_lt, not_le] at hnone
    exact ⟨⟨by omega, by omega⟩, (if_pos hnone.2).symm⟩

theorem inside_of_append {b b' : Buffer} {piece : Bytes}
    (h : append jsonSize b piece = some b') :
    Inside b.off ∧ (b'.off : ℤ) = b.off + printed piece := by
  obtain ⟨⟨text, n⟩, hprint, rfl⟩ := Option.map_eq_some_iff.1 h
  obtain ⟨hin, hn⟩ := inside_of_snprintf hprint
  exact ⟨hin, by simp [hn]⟩

theorem offsets_of_appendFields {b b' : Buffer} {fields : List Variable}
    (h : appendFields jsonSize b fields = some b') :
    StaysIn (fieldOffsets b.off fields).1 ∧ (fieldOffsets b.off fields).2 = b'.off := by
  induction fields generalizing b with
  | nil =>
    cases h
    simp [fieldOffsets, StaysIn]
  | cons f next ih =>
    obtain ⟨⟨text, n⟩, hprint, h⟩ := Option.bind_eq_some_iff.1 h
    obtain ⟨hin, hn⟩ := inside_of_snprintf hprint
    have hin' := hin
    rw [Inside] at hin'
    rw [fieldOffsets]
    simp only at h ⊢
    rw [← hn]
    by_cases hstop : jsonSize - b.off ≤ n
    · rw [if_pos hstop] at h
      cases h
      rw [if_pos (by omega)]
      simp [StaysIn, hin]
    · rw [if_neg hstop] at h
      obtain ⟨hoffs, hbehind⟩ := ih h
      rw [Nat.cast_add] at hoffs hbehind
      rw [if_neg (by omega)]
      exact ⟨List.forall_mem_cons.2 ⟨hin, hoffs⟩, hbehind⟩

/-- The first piece, the fields and the last piece of a text with one object. -/
theorem staysIn_of_object {first : Bytes} {fields : List Variable} {b b' : Buffer} {r : Bytes × ℕ}
    (hfirst : append jsonSize ⟨[], 0⟩ first = some b)
    (hfields : appendFields jsonSize b fields = some b')
    (hlast : snprintf jsonSize b' (ascii "\x7d]") = some r) :
    StaysIn (objectOffsets first fields) := by
  obtain ⟨hzero, hoff⟩ := inside_of_append hfirst
  obtain ⟨hoffs, hbehind⟩ := offsets_of_appendFields hfields
  rw [hoff] at hoffs hbehind
  refine List.forall_mem_cons.2 ⟨hzero, List.forall_mem_append.2 ⟨hoffs, ?_⟩⟩
  rw [List.forall_mem_singleton]
  exact hbehind ▸ (inside_of_snprintf hlast).1

variable {table : Bytes} {fields : List Variable} {s : Sends}

/-- **The texts are written inside the buffer** wherever the model of the texts has a result. -/
theorem staysIn_of_updateTarantool {keyfield entity : Bytes}
    (h : updateTarantool table keyfield entity fields = some s) :
    StaysIn (updateOffsets table keyfield entity fields) := by
  rw [updateOffsets]
  split_ifs with hempty
  · simp [StaysIn]
  · rw [updateTarantool, if_neg hempty] at h
    obtain ⟨b, hfirst, h⟩ := Option.bind_eq_some_iff.1 h
    obtain ⟨b', hfields, h⟩ := Option.bind_eq_some_iff.1 h
    obtain ⟨r, hlast, -⟩ := Option.bind_eq_some_iff.1 h
    exact staysIn_of_object hfirst hfields hlast

theorem staysIn_of_storeTarantool (h : storeTarantool table fields = some s) :
    StaysIn (storeOffsets table fields) := by
  rw [storeOffsets]
  split_ifs with hempty
  · simp [StaysIn]
  · rw [storeTarantool, if_neg hempty] at h
    obtain ⟨b, hfirst, h⟩ := Option.bind_eq_some_iff.1 h
    obtain ⟨b', hfields, h⟩ := Option.bind_eq_some_iff.1 h
    obtain ⟨r, hlast, -⟩ := Option.bind_eq_some_iff.1 h
    exact staysIn_of_object hfirst hfields hlast

theorem staysIn_of_update2Tarantool {lookupFields updateFields : List Variable}
    (h : update2Tarantool table lookupFields updateFields = some s) :
    StaysIn (update2Offsets table lookupFields updateFields) := by
  rw [update2Offsets]
  split_ifs with hempty
  · simp [StaysIn]
  · rw [update2Tarantool, if_neg hempty] at h
    obtain ⟨b, hfirst, h⟩ := Option.bind_eq_some_iff.1 h
    obtain ⟨b', hlookup, h⟩ := Option.bind_eq_some_iff.1 h
    obtain ⟨c, hbetween, h⟩ := Option.bind_eq_some_iff.1 h
    obtain ⟨d, hupdate, h⟩ := Option.bind_eq_some_iff.1 h
    obtain ⟨r, hlast, -⟩ := Option.bind_eq_some_iff.1 h
    obtain ⟨hzero, hoff⟩ := inside_of_append hfirst
    obtain ⟨hoffs, hbehind⟩ := offsets_of_appendFields hlookup
    obtain ⟨hin, hoff'⟩ := inside_of_append hbetween
    obtain ⟨hoffs', hbehind'⟩ := offsets_of_appendFields hupdate
    rw [hoff] at hoffs hbehind
    rw [hoff', ← hbehind] at hoffs' hbehind'
    refine List.forall_mem_cons.2 ⟨hzero, List.forall_mem_append.2 ⟨hoffs, ?_⟩⟩
    refine List.forall_mem_cons.2 ⟨hbehind ▸ hin, List.forall_mem_append.2 ⟨hoffs', ?_⟩⟩
    rw [List.forall_mem_singleton]
    exact hbehind' ▸ (inside_of_snprintf hlast).1

/-! ## The bodies -/

theorem callEncoded_fits (sock : Option Socket) (procName paramsJson : Option Bytes) :
    BodyFits (callEncoded sock procName paramsJson) ↔
      sock = none ∨ ∀ name ∈ procName, callSize name paramsJson ≤ bodySize := by
  cases procName with
  | none => simp [callEncoded, BodyFits]
  | some name =>
    cases sock with
    | none => simp [callEncoded, BodyFits]
    | some sock =>
      have hlen : ∀ body ∈ callEncoded (some sock) (some name) paramsJson,
          body.length = callSize name paramsJson := by
        intro body hbody
        cases hbody
        simp (disch := decide) only [List.length_append, length_mpEncodeMap, length_mpEncodeUint,
          uintSize_fixint, RtpEngine.length_encodeStr, callSize]
        split_ifs
        · simp (disch := decide) only [length_mpEncodeArray]
          omega
        · simp (disch := decide) only [List.length_append, length_mpEncodeArray,
            RtpEngine.length_encodeStr]
          omega
      simp only [reduceCtorEq, false_or, Option.mem_some_iff, forall_eq']
      rw [← hlen _ rfl]
      simp [BodyFits, callEncoded]

theorem evalEncoded_fits (sock : Option Socket) (expr : Option Bytes) :
    BodyFits (evalEncoded sock expr) ↔
      sock = none ∨ ∀ text ∈ expr, 4 + RtpEngine.cutSize text ≤ bodySize := by
  cases expr with
  | none => simp [evalEncoded, BodyFits]
  | some text =>
    cases sock with
    | none => simp [evalEncoded, BodyFits]
    | some sock =>
      have hlen : ∀ body ∈ evalEncoded (some sock) (some text),
          body.length = 4 + RtpEngine.cutSize text := by
        intro body hbody
        cases hbody
        simp (disch := decide) only [List.length_append, length_mpEncodeMap, length_mpEncodeUint,
          uintSize_fixint, RtpEngine.length_encodeStr, length_mpEncodeArray]
        omega
      simp only [reduceCtorEq, false_or, Option.mem_some_iff, forall_eq']
      rw [← hlen _ rfl]
      simp [BodyFits, evalEncoded]

/-- For arguments of less than 4 GiB the body is the one that is sent. -/
theorem callEncoded_eq_callBody (sock : Socket) {procName paramsJson : Bytes}
    (hname : procName.length < 2 ^ 32) (hparams : paramsJson.length < 2 ^ 32) :
    callEncoded (some sock) (some procName) (some paramsJson) =
      some (callBody procName paramsJson) := by
  have hcut : ∀ {s : Bytes}, s.length < 2 ^ 32 → RtpEngine.encodeStr s = mpEncodeStr s := by
    intro s hs
    rw [RtpEngine.encodeStr, Nat.mod_eq_of_lt hs, List.take_length]
  simp only [callEncoded, callBody, Option.getD_some, hcut hname, hcut hparams]

/-! ## All of them -/

/-- **When the positions and the bodies stay in their buffers.**  The first piece, the fields that
fit behind it and the four bytes between two objects are at most 2048 bytes, and so is the sum of
the widths of the strings in a body. -/
theorem staysIn_iff (table keyfield entity : Bytes)
    (fields lookupFields updateFields : List Variable) (sock : Option Socket)
    (procName paramsJson expr : Option Bytes) :
    (StaysIn (updateOffsets table keyfield entity fields) ↔
      fields = [] ∨ ObjectFits (updatePiece table keyfield entity) fields) ∧
    (StaysIn (update2Offsets table lookupFields updateFields) ↔
      (lookupFields = [] ∨ updateFields = []) ∨
        ObjectsFit (tablePiece table) lookupFields updateFields) ∧
    (StaysIn (storeOffsets table fields) ↔
      fields = [] ∨ ObjectFits (tablePiece table) fields) ∧
    (BodyFits (callEncoded sock procName paramsJson) ↔
      sock = none ∨ ∀ name ∈ procName, callSize name paramsJson ≤ bodySize) ∧
    (BodyFits (evalEncoded sock expr) ↔
      sock = none ∨ ∀ text ∈ expr, 4 + RtpEngine.cutSize text ≤ bodySize) :=
  ⟨staysIn_updateOffsets table keyfield entity fields,
    staysIn_update2Offsets table lookupFields updateFields, staysIn_storeOffsets table fields,
    callEncoded_fits sock procName paramsJson, evalEncoded_fits sock expr⟩

/-- A table with a name of 2048 bytes, and arguments that fill their own buffer. -/
theorem not_staysIn_full :
    ¬ StaysIn (updateOffsets (List.replicate 2048 0x61) (ascii "id") (ascii "100")
        [⟨ascii "host", ascii "dynamic"⟩]) ∧
      ¬ BodyFits (callEncoded (some ⟨7, true, 0⟩) (some (ascii "ast_realtime_update"))
        (some (List.replicate 2047 0x61))) := by
  constructor
  · rw [staysIn_updateOffsets]
    rintro (hempty | ⟨hfits, -⟩)
    · cases hempty
    · have hopen : (ascii "[").length = 1 := rfl
      simp only [updatePiece, quoted, List.length_append, List.length_replicate, jsonSize] at hfits
      omega
  · rw [callEncoded_fits]
    rintro (hsock | hfits)
    · cases hsock
    · have hcall := hfits _ rfl
      have hname : RtpEngine.cutSize (ascii "ast_realtime_update") = 20 := rfl
      have hparams : RtpEngine.cutSize (List.replicate 2047 0x61) = 2050 := by
        rw [RtpEngine.cutSize, List.length_replicate]
        rfl
      rw [callSize, hname, Option.getD_some, if_neg (by simp), hparams] at hcall
      exact absurd hcall (by decide)

end Asterisk

end VoipBackend
