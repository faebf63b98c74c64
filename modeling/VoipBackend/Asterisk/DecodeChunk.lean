import VoipBackend.Lib.CString

/-!
# Escapes in the values of a row

A `^` and two hexadecimal digits in a value stand for a byte.  `decode_chunk` of
`res_config_tarantool.c` replaces them in the buffer of the value: it writes the byte over the `^`
and moves the rest of the string up by two.  It looks for a digit with `strchr`, which finds the NUL
at the end of the digits as well, so that a string may end in the middle of what it takes for an
escape.

`rewrites_iff` says for which strings nothing behind the NUL is read and the escapes are replaced.
-/

namespace VoipBackend

open Library CString

namespace Asterisk

/-! ## In the buffer -/

/-- The value of a character of `"0123456789ABCDEFabcdef"`. -/
def hexDigit (c : UInt8) : Option UInt8 :=
  if 0x30 ≤ c ∧ c ≤ 0x39 then some (c - 0x30)
  else if 0x41 ≤ c ∧ c ≤ 0x46 then some (c - 0x37)
  else if 0x61 ≤ c ∧ c ≤ 0x66 then some (c - 0x57)
  else none

/-- `strchr("0123456789ABCDEFabcdef", c)` is not null.  The NUL is a character of the string. -/
def isFound (c : UInt8) : Bool := (strchr c (ascii "0123456789ABCDEFabcdef" ++ [0])).isSome

/-- `sscanf(p, "%02x", &byte_val)` where digits or a NUL are: it reads one digit or two. -/
def scanByte : Bytes → Option UInt8
  | [] => none
  | a :: p =>
      match hexDigit a, p.head?.bind hexDigit with
      | some hi, some lo => some (hi * 16 + lo)
      | some lo, none => some lo
      | none, _ => none

/-- `memmove(p, p + 2, strlen(p + 2) + 1)`. -/
def moveUp (p : Bytes) : Option Bytes :=
  let src := p.drop 2
  let n := (ofBuffer src).length + 1
  if 0 ∈ src then some (src.take n ++ p.drop n) else none

/-- The body of the loop: the byte `*chunk`, and those behind it. -/
def replaceEscape (c : UInt8) (p : Bytes) : Option (UInt8 × Bytes) :=
  if c ≠ 0x5e then some (c, p)
  else
    match p with
    | [] => none
    | a :: q =>
        if isFound a = false then some (c, p)
        else
          match q with
          | [] => none
          | b :: _ =>
              if isFound b = false then some (c, p)
              else
                match scanByte p with
                | none => some (c, p)
                | some byteVal => (moveUp p).map fun p => (byteVal, p)

/-- The loop, with as many bytes of the buffer as there are from `chunk` on. -/
def decodeLoop : ℕ → Bytes → Option Bytes
  | n + 1, c :: p =>
      if c = 0 then some (c :: p)
      else do
        let (c, p) ← replaceEscape c p
        (decodeLoop n p).map (c :: ·)
  | _, _ => none

/-- `decode_chunk`, on the bytes from `chunk` to the end of the buffer.  There is no result if a
byte behind the buffer is read. -/
def decodeChunk (chunk : Bytes) : Option Bytes := decodeLoop chunk.length chunk

/-! ## What the escapes stand for -/

/-- The byte of two digits. -/
def escapeValue (a b : UInt8) : Option UInt8 := do
  let hi ← hexDigit a
  let lo ← hexDigit b
  return hi * 16 + lo

/-- Every `^` and two digits are replaced by their byte, from left to right. -/
def unescape : Bytes → Bytes
  | c :: a :: b :: s =>
      match if c = 0x5e then escapeValue a b else none with
      | some byte => byte :: unescape s
      | none => c :: unescape (a :: b :: s)
  | s => s

/-- There is a `^` and two digits in the string. -/
def HasEscape (s : Bytes) : Prop :=
  ∃ x a b y, s = x ++ 0x5e :: a :: b :: y ∧ (escapeValue a b).isSome

/-- The string is decoded. -/
structure Rewrites (s : Bytes) : Prop where
  /-- Nothing behind its NUL is read: the buffer may end there. -/
  inside : (decodeChunk (s ++ [0])).isSome
  /-- Whatever is behind it, the escapes are replaced. -/
  rewritten : ∀ after, ∃ rest, decodeChunk (s ++ 0 :: after) = some (unescape s ++ 0 :: rest)

/-- No escape is cut off by the end of the string.  A `^` alone may be there if there is an escape
in front of it: what is behind the string then was a part of it before. -/
structure Complete (s : Bytes) : Prop where
  digit : ∀ t h, s = t ++ [0x5e, h] → hexDigit h = none
  caret : ∀ t, s = t ++ [0x5e] → HasEscape t

/-! ## One step -/

theorem hexDigit_isSome_iff (c : UInt8) : (hexDigit c).isSome ↔ (48 ≤ c.toNat ∧ c.toNat < 58) ∨
    (65 ≤ c.toNat ∧ c.toNat < 71) ∨ (97 ≤ c.toNat ∧ c.toNat < 103) := by
  unfold hexDigit
  simp only [UInt8.le_iff_toNat_le, UInt8.reduceToNat]
  split_ifs <;> simp <;> omega

/-- `strchr` finds the digits and the NUL. -/
theorem isFound_iff (c : UInt8) : isFound c = true ↔ c = 0 ∨ (hexDigit c).isSome := by
  have hchars : (ascii "0123456789ABCDEFabcdef").map UInt8.toNat =
      List.range' 48 10 ++ List.range' 65 6 ++ List.range' 97 6 := by
    simp [ascii, List.range'_succ]
  have hmem : c ∈ ascii "0123456789ABCDEFabcdef" ↔
      c.toNat ∈ (ascii "0123456789ABCDEFabcdef").map UInt8.toNat :=
    (List.mem_map_of_injective fun _ _ => UInt8.toNat_inj.1).symm
  rw [isFound, strchr_isSome_iff, List.mem_append, List.mem_singleton, or_comm, hmem, hchars,
    hexDigit_isSome_iff]
  simp only [List.mem_append, List.mem_range'_1]
  refine or_congr_right ?_
  omega

theorem isFound_eq_false {c : UInt8} (hc : c ≠ 0) (h : hexDigit c = none) : isFound c = false := by
  rw [← Bool.not_eq_true, isFound_iff, h]
  simp [hc]

theorem hexDigit_ne_caret (c : UInt8) : hexDigit c ≠ some 0x5e := by
  intro h
  unfold hexDigit at h
  split_ifs at h with hfigure hupper hlower
  all_goals
    rw [Option.some.injEq, UInt8.sub_eq_iff_eq_add] at h
    subst h
  · exact absurd hfigure (by decide)
  · exact absurd hupper (by decide)
  · exact absurd hlower (by decide)

theorem length_moveUp {p p' : Bytes} (h : moveUp p = some p') : p'.length = p.length := by
  unfold moveUp at h
  simp only at h
  split_ifs at h with hnul
  cases h
  have hn : (ofBuffer (p.drop 2)).length < (p.drop 2).length := by
    refine lt_of_le_of_ne (ofBuffer_start _).length_le fun heq => ?_
    have hwhole := (ofBuffer_start (p.drop 2)).eq_of_length heq
    rw [← hwhole] at hnul
    exact absurd (List.mem_takeWhile_imp hnul) (by simp)
  rw [List.length_drop] at hn
  rw [List.length_append, List.length_take, List.length_drop, List.length_drop]
  omega

/-- The body of the loop keeps the size of the buffer. -/
theorem length_replaceEscape {c c' : UInt8} {p p' : Bytes}
    (h : replaceEscape c p = some (c', p')) : p'.length = p.length := by
  unfold replaceEscape at h
  split_ifs at h with hcaret
  · cases h
    rfl
  · split at h
    · cases h
    · split_ifs at h
      · cases h
        rfl
      · split at h
        · cases h
        · split_ifs at h
          · cases h
            rfl
          · split at h
            · cases h
              rfl
            · obtain ⟨q, hq, heq⟩ := Option.map_eq_some_iff.1 h
              cases heq
              exact length_moveUp hq

/-- **One step.** -/
theorem decodeChunk_cons {c : UInt8} (hc : c ≠ 0) (p : Bytes) :
    decodeChunk (c :: p) =
      (replaceEscape c p).bind fun (c, p) => (decodeChunk p).map (c :: ·) := by
  rw [decodeChunk, List.length_cons, decodeLoop, if_neg hc]
  cases h : replaceEscape c p with
  | none => rfl
  | some x =>
    obtain ⟨c', p'⟩ := x
    show (decodeLoop p.length p').map _ = (decodeLoop p'.length p').map _
    rw [length_replaceEscape h]

/-- Two digits and the NUL of the string behind them: the byte is written, and the string behind the
digits moves up.  Its last byte and its NUL stay where they were as well. -/
theorem replaceEscape_digits {a b v : UInt8} (h : escapeValue a b = some v) {s : Bytes}
    (hs : 0 ∉ s) (z : Bytes) :
    replaceEscape 0x5e (a :: b :: (s ++ 0 :: z)) =
      some (v, s ++ 0 :: ((b :: s).drop s.length ++ 0 :: z)) := by
  obtain ⟨hi, ha, h⟩ := Option.bind_eq_some_iff.1 h
  obtain ⟨lo, hb, h⟩ := Option.bind_eq_some_iff.1 h
  have hfirst : isFound a = true := (isFound_iff a).2 (Or.inr (by rw [ha]; rfl))
  have hsecond : isFound b = true := (isFound_iff b).2 (Or.inr (by rw [hb]; rfl))
  have hscan : scanByte (a :: b :: (s ++ 0 :: z)) = some v := by
    rw [scanByte, List.head?_cons, Option.bind_some, ha, hb]
    exact h
  have hstring : ofBuffer (s ++ 0 :: z) = s := by
    have hbytes : ∀ c ∈ s, decide (c ≠ 0) = true := fun c hc =>
      decide_eq_true (ne_of_mem_of_not_mem hc hs)
    rw [ofBuffer, List.takeWhile_append_of_pos hbytes]
    simp
  have hmove : moveUp (a :: b :: (s ++ 0 :: z)) =
      some (s ++ 0 :: ((b :: s).drop s.length ++ 0 :: z)) := by
    have hnul : 0 ∈ s ++ 0 :: z := by simp
    have htake : (s ++ 0 :: z).take (s.length + 1) = s ++ [0] := by
      rw [List.take_append, List.take_of_length_le (Nat.le_succ _)]
      simp
    have hdrop : (b :: (s ++ 0 :: z)).drop s.length = (b :: s).drop s.length ++ 0 :: z := by
      rw [← List.cons_append, List.drop_append_of_le_length (Nat.le_succ _)]
    unfold moveUp
    simp only [List.drop_succ_cons, List.drop_zero, hstring, htake, hdrop, if_pos hnul,
      List.append_assoc]
    rfl
  simp [replaceEscape, hfirst, hsecond, hscan, hmove]

/-- A byte is kept if it is no `^`, or one of the two behind it is no digit. -/
theorem replaceEscape_kept {c : UInt8} {p : Bytes}
    (h : c = 0x5e → (∃ a q, p = a :: q ∧ isFound a = false) ∨
      ∃ a b q, p = a :: b :: q ∧ isFound b = false) : replaceEscape c p = some (c, p) := by
  by_cases hc : c = 0x5e
  · rcases h hc with ⟨a, q, rfl, ha⟩ | ⟨a, b, q, rfl, hb⟩
    · simp [replaceEscape, ha]
    · cases ha : isFound a with
      | false => simp [replaceEscape, ha]
      | true => simp [replaceEscape, ha, hb]
  · exact if_pos hc

/-! ## Strings and their escapes -/

/-- No escape starts with the first byte of a string. -/
def NoEscapeAt (c : UInt8) (s : Bytes) : Prop :=
  c = 0x5e → ∀ a b q, s = a :: b :: q → escapeValue a b = none

/-- A string is empty, or starts with an escape, or with a byte that starts none. -/
theorem escape_induction {P : Bytes → Prop} (nil : P [])
    (escape : ∀ a b v s, escapeValue a b = some v → P s → P (0x5e :: a :: b :: s))
    (kept : ∀ c s, NoEscapeAt c s → P s → P (c :: s)) : ∀ s, P s
  | [] => nil
  | c :: s => by
    by_cases hno : NoEscapeAt c s
    · exact kept c s hno (escape_induction nil escape kept s)
    · unfold NoEscapeAt at hno
      push Not at hno
      obtain ⟨rfl, a, b, q, rfl, hvalue⟩ := hno
      obtain ⟨v, hv⟩ := Option.ne_none_iff_exists'.1 hvalue
      exact escape a b v q hv (escape_induction nil escape kept q)
termination_by s => s.length

theorem unescape_escape {a b v : UInt8} (h : escapeValue a b = some v) (s : Bytes) :
    unescape (0x5e :: a :: b :: s) = v :: unescape s := by
  rw [unescape, if_pos rfl, h]

theorem unescape_kept {c : UInt8} {s : Bytes} (h : NoEscapeAt c s) :
    unescape (c :: s) = c :: unescape s := by
  match s with
  | [] => rfl
  | [a] => rfl
  | a :: b :: q =>
    have hnone : (if c = 0x5e then escapeValue a b else none) = none := by
      split_ifs with hc
      · exact h hc a b q rfl
      · rfl
    rw [unescape, hnone]

theorem hasEscape_escape {a b v : UInt8} (h : escapeValue a b = some v) (s : Bytes) :
    HasEscape (0x5e :: a :: b :: s) := ⟨[], a, b, s, rfl, by rw [h]; rfl⟩

theorem hasEscape_kept_iff {c : UInt8} {s : Bytes} (h : NoEscapeAt c s) :
    HasEscape (c :: s) ↔ HasEscape s := by
  constructor
  · rintro ⟨x, a, b, y, heq, hvalue⟩
    cases x with
    | nil =>
      obtain ⟨hc, hs⟩ := List.cons.inj heq
      rw [h hc a b y hs] at hvalue
      cases hvalue
    | cons c' x => exact ⟨x, a, b, y, (List.cons.inj heq).2, hvalue⟩
  · rintro ⟨x, a, b, y, rfl, hvalue⟩
    exact ⟨c :: x, a, b, y, rfl, hvalue⟩

/-- The string ends with a `^`, or with a `^` and one digit. -/
def EndsOpen (s : Bytes) : Prop :=
  ∃ t, s = t ++ [0x5e] ∨ ∃ h, (hexDigit h).isSome ∧ s = t ++ [0x5e, h]

theorem EndsOpen.append {s : Bytes} (h : EndsOpen s) (t : Bytes) : EndsOpen (t ++ s) := by
  obtain ⟨u, rfl | ⟨d, hd, rfl⟩⟩ := h
  · exact ⟨t ++ u, Or.inl (List.append_assoc ..).symm⟩
  · exact ⟨t ++ u, Or.inr ⟨d, hd, (List.append_assoc ..).symm⟩⟩

/-! ## A run -/

/-- A byte that starts no escape is kept if the string goes on with a `^`, or does not end in the
middle of what is taken for an escape. -/
theorem replaceEscape_append {c : UInt8} {s u : Bytes} (hs : 0 ∉ s) (hno : NoEscapeAt c s)
    (hu : u.head? = some 0x5e ∨ ¬ EndsOpen (c :: s)) (y : Bytes) :
    replaceEscape c (s ++ (u ++ y)) = some (c, s ++ (u ++ y)) := by
  refine replaceEscape_kept ?_
  rintro rfl
  have hcaret : isFound 0x5e = false := isFound_eq_false (by decide) (by decide)
  match s with
  | [] =>
    refine Or.inl ?_
    rcases hu with hu | hclosed
    · obtain ⟨u', rfl⟩ := List.head?_eq_some_iff.1 hu
      exact ⟨0x5e, u' ++ y, rfl, hcaret⟩
    · exact absurd ⟨[], Or.inl rfl⟩ hclosed
  | [a] =>
    cases ha : hexDigit a with
    | none => exact Or.inl ⟨a, u ++ y, rfl, isFound_eq_false (by rintro rfl; simp at hs) ha⟩
    | some v =>
      rcases hu with hu | hclosed
      · obtain ⟨u', rfl⟩ := List.head?_eq_some_iff.1 hu
        exact Or.inr ⟨a, 0x5e, u' ++ y, rfl, hcaret⟩
      · exact absurd ⟨[], Or.inr ⟨a, by rw [ha]; rfl, rfl⟩⟩ hclosed
  | a :: b :: q =>
    simp only [List.mem_cons, not_or] at hs
    have hvalue := hno rfl a b q rfl
    cases ha : hexDigit a with
    | none => exact Or.inl ⟨a, b :: q ++ (u ++ y), rfl, isFound_eq_false (Ne.symm hs.1) ha⟩
    | some hi =>
      cases hb : hexDigit b with
      | none => exact Or.inr ⟨a, b, q ++ (u ++ y), rfl, isFound_eq_false (Ne.symm hs.2.1) hb⟩
      | some lo =>
        rw [escapeValue, ha, hb] at hvalue
        cases hvalue

/-- **A run over the first part of a string.**  By induction on its escapes: before each step, the
rest of the string is in the buffer, with its NUL, and what is behind the NUL has grown by every
escape so far. -/
theorem decodeChunk_append {t u : Bytes} (h : 0 ∉ t ++ u)
    (hu : u.head? = some 0x5e ∨ ¬ EndsOpen t) (z : Bytes) :
    ∃ z', (HasEscape t → z' ≠ []) ∧ (¬ HasEscape t → z' = z) ∧ ∀ after,
      decodeChunk (t ++ (u ++ 0 :: (z ++ after))) =
        (decodeChunk (u ++ 0 :: (z' ++ after))).map (unescape t ++ ·) := by
  induction t using escape_induction generalizing z with
  | nil =>
    refine ⟨z, ?_, fun _ => rfl, fun after => ?_⟩
    · rintro ⟨x, a, b, y, heq, -⟩
      exact absurd heq.symm (by simp)
    · exact Option.map_id'.symm
  | escape a b v s hvalue ih =>
    have hrest : 0 ∉ s ++ u := fun hmem =>
      h (List.mem_cons_of_mem _ (List.mem_cons_of_mem _ (List.mem_cons_of_mem _ hmem)))
    have hopen : u.head? = some 0x5e ∨ ¬ EndsOpen s :=
      hu.imp_right fun hclosed hopen => hclosed (hopen.append [0x5e, a, b])
    obtain ⟨z', hfar, hsame, heq⟩ := ih hrest hopen ((b :: (s ++ u)).drop (s ++ u).length ++ 0 :: z)
    have hne : z' ≠ [] := by
      by_cases hescape : HasEscape s
      · exact hfar hescape
      · rw [hsame hescape]
        simp
    refine ⟨z', fun _ => hne, fun hnot => absurd (hasEscape_escape hvalue s) hnot, fun after => ?_⟩
    have hstep := replaceEscape_digits hvalue hrest (z ++ after)
    have hnext := heq after
    simp only [List.append_assoc, List.cons_append] at hstep hnext ⊢
    rw [decodeChunk_cons (by decide), hstep, Option.bind_some, unescape_escape hvalue]
    simp only
    rw [hnext, Option.map_map]
    rfl
  | kept c s hno ih =>
    have hc : c ≠ 0 := by
      rintro rfl
      exact h List.mem_cons_self
    have hrest : 0 ∉ s ++ u := fun hmem => h (List.mem_cons_of_mem c hmem)
    have hopen : u.head? = some 0x5e ∨ ¬ EndsOpen s :=
      hu.imp_right fun hclosed hopen => hclosed (hopen.append [c])
    obtain ⟨z', hfar, hsame, heq⟩ := ih hrest hopen z
    rw [hasEscape_kept_iff hno]
    refine ⟨z', hfar, hsame, fun after => ?_⟩
    have hstep := replaceEscape_append (fun hmem => hrest (List.mem_append_left u hmem)) hno hu
      (0 :: (z ++ after))
    rw [List.cons_append, decodeChunk_cons hc, hstep, Option.bind_some, unescape_kept hno]
    simp only
    rw [heq after, Option.map_map]
    rfl

/-- The escapes of a string are those of its parts if none goes over from one into the other. -/
theorem unescape_append {t u : Bytes} (hu : u.head? = some 0x5e) :
    unescape (t ++ u) = unescape t ++ unescape u := by
  have hcaret : hexDigit 0x5e = none := by decide
  obtain ⟨u', rfl⟩ := List.head?_eq_some_iff.1 hu
  induction t using escape_induction with
  | nil => rfl
  | escape a b v s hvalue ih =>
    rw [List.cons_append, List.cons_append, List.cons_append, unescape_escape hvalue,
      unescape_escape hvalue, ih]
    rfl
  | kept c s hno ih =>
    have hno' : NoEscapeAt c (s ++ 0x5e :: u') := by
      intro hc a b q heq
      match s with
      | [] =>
        rw [escapeValue, ← (List.cons.inj heq).1, hcaret]
        rfl
      | [a'] =>
        obtain ⟨-, hrest⟩ := List.cons.inj heq
        rw [escapeValue, ← (List.cons.inj hrest).1, hcaret]
        cases hexDigit a <;> rfl
      | a' :: b' :: q' =>
        obtain ⟨ha, hrest⟩ := List.cons.inj heq
        rw [← ha, ← (List.cons.inj hrest).1]
        exact hno hc a' b' q' rfl
    rw [List.cons_append, unescape_kept hno', unescape_kept hno, ih]
    rfl

/-! ## Ends of strings -/

/-- A `^` alone is kept, once the byte behind the NUL has been read: there is no digit to scan. -/
theorem decodeChunk_caret (b : UInt8) (z : Bytes) :
    decodeChunk (0x5e :: 0 :: b :: z) = some (0x5e :: 0 :: b :: z) := by
  have hnul : isFound 0 = true := (isFound_iff 0).2 (Or.inl rfl)
  have hscan : scanByte (0 :: b :: z) = none := rfl
  have hkept : replaceEscape 0x5e (0 :: b :: z) = some (0x5e, 0 :: b :: z) := by
    cases hb : isFound b with
    | false => simp [replaceEscape, hnul, hb]
    | true => simp [replaceEscape, hnul, hb, hscan]
  rw [decodeChunk_cons (by decide), hkept]
  rfl

/-- A digit alone is taken for two, and is written over the `^`. -/
theorem decodeChunk_digit {d : UInt8} (hd : (hexDigit d).isSome) {z buf : Bytes}
    (h : decodeChunk (0x5e :: d :: 0 :: z) = some buf) : buf.head? ≠ some 0x5e := by
  obtain ⟨v, hv⟩ := Option.isSome_iff_exists.1 hd
  have hfirst : isFound d = true := (isFound_iff d).2 (Or.inr hd)
  have hsecond : isFound 0 = true := (isFound_iff 0).2 (Or.inl rfl)
  have hscan : scanByte (d :: 0 :: z) = some v := by
    rw [scanByte, hv]
    rfl
  have hstep : replaceEscape 0x5e (d :: 0 :: z) =
      (moveUp (d :: 0 :: z)).map fun p => (v, p) := by
    simp [replaceEscape, hfirst, hsecond, hscan]
  rw [decodeChunk_cons (by decide), hstep] at h
  obtain ⟨⟨c, p⟩, hp, h⟩ := Option.bind_eq_some_iff.1 h
  obtain ⟨q, -, heq⟩ := Option.map_eq_some_iff.1 hp
  obtain ⟨tail, -, rfl⟩ := Option.map_eq_some_iff.1 h
  cases heq
  intro hcaret
  rw [Option.some.inj hcaret] at hv
  exact hexDigit_ne_caret d hv

/-! ## Strings that are decoded -/

/-- A string that is complete is decoded, whatever is behind its NUL, and that stays as it is. -/
theorem decodeChunk_complete {s : Bytes} (hs : 0 ∉ s) (h : Complete s) :
    ∃ rest, ∀ after, decodeChunk (s ++ 0 :: after) = some (unescape s ++ 0 :: (rest ++ after)) := by
  by_cases hopen : EndsOpen s
  · obtain ⟨t, rfl | ⟨d, hd, rfl⟩⟩ := hopen
    · obtain ⟨z, hne, -, heq⟩ := decodeChunk_append hs (Or.inl rfl) []
      obtain ⟨b, z, rfl⟩ := List.exists_cons_of_ne_nil (hne (h.caret t rfl))
      refine ⟨b :: z, fun after => ?_⟩
      -- the byte behind the NUL was a part of the string
      have hrun := heq after
      simp only [List.nil_append, List.cons_append] at hrun
      rw [List.append_assoc, unescape_append rfl, List.cons_append, List.nil_append, hrun,
        decodeChunk_caret]
      simp [unescape]
    · rw [h.digit t d rfl] at hd
      cases hd
  · obtain ⟨z, -, -, heq⟩ := decodeChunk_append (u := []) (by rwa [List.append_nil])
      (Or.inr hopen) []
    exact ⟨z, fun after => heq after⟩

/-- **Which strings are decoded.**  Of a string that is not cut off in the middle of an escape, no
byte behind the NUL is read, and every `^` and two digits are replaced by their byte.  Of all others
the byte behind the NUL is read, or a `^` and one digit are replaced. -/
theorem rewrites_iff {s : Bytes} (hs : 0 ∉ s) : Rewrites s ↔ Complete s := by
  constructor
  · rintro ⟨hinside, hrewritten⟩
    constructor
    · rintro t d rfl
      by_contra hd
      obtain ⟨z, -, -, heq⟩ := decodeChunk_append hs (Or.inl rfl) []
      obtain ⟨rest, hresult⟩ := hrewritten []
      have hrun := heq []
      rw [← List.append_assoc, List.append_nil, hresult, unescape_append rfl] at hrun
      obtain ⟨buf, hbuf, hsplit⟩ := Option.map_eq_some_iff.1 hrun.symm
      rw [List.append_assoc] at hsplit
      have hkept : buf = unescape [0x5e, d] ++ 0 :: rest := List.append_cancel_left hsplit
      refine decodeChunk_digit (Option.ne_none_iff_isSome.1 hd) hbuf ?_
      rw [hkept]
      rfl
    · rintro t rfl
      by_contra hno
      obtain ⟨z, -, hsame, heq⟩ := decodeChunk_append hs (Or.inl rfl) []
      rw [hsame hno] at heq
      have hnone : decodeChunk ([0x5e] ++ [0]) = none := by decide
      have hrun := heq []
      rw [← List.append_assoc, List.nil_append, hnone] at hrun
      rw [hrun] at hinside
      cases hinside
  · intro h
    obtain ⟨rest, heq⟩ := decodeChunk_complete hs h
    constructor
    · rw [heq []]
      rfl
    · intro after
      exact ⟨rest ++ after, heq after⟩

/-- A `^` alone, behind an escape. -/
theorem rewrites_iff_caret : Rewrites (ascii "^41^") := by
  refine (rewrites_iff (by decide)).2 ⟨fun t d h => ?_, fun t h => ?_⟩
  · have hlast := congrArg (fun s : Bytes => s.reverse[1]?) h
    simp [ascii] at hlast
  · have ht : t = ascii "^41" := (List.append_inj_left' h rfl).symm
    exact ⟨[], 0x34, 0x31, [], ht, by decide⟩

example : decodeChunk (ascii "^41^" ++ [0]) = some (ascii "A^" ++ 0 :: (ascii "^" ++ [0])) := by
  decide

/-- **A string that goes on behind its NUL.**  The digit of `^4` is taken for two: the buffer must
not end with the NUL, and what is behind it becomes a part of the string. -/
theorem not_rewrites_digit :
    decodeChunk (ascii "^4" ++ 0 :: (ascii "old" ++ [0])) =
        some (0x04 :: ascii "old" ++ 0 :: (ascii "d" ++ [0])) ∧
      ¬ Rewrites (ascii "^4") := by
  refine ⟨by decide, fun h => ?_⟩
  exact absurd h.inside (by decide)

end Asterisk

end VoipBackend
