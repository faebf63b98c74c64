import VoipBackend.Wire.Get
import VoipBackend.Wire.Grammar

/-!
# Do the drivers stay inside a frame?

No decoder of `msgpuck.h` is told where the frame ends.  `check_iproto_status` looks at the end
before each key, and at no other place; the other loops go on as long as the counts in the frame
tell them to.

So they stay inside exactly the frames of the grammar of what they call for (`Rule`), whatever the
callback of `rtpe_tarantool_restore_calls` returns (`staysInside_iff`), and of every length there
is a frame they do not stay inside (`exists_beyond`).
-/

namespace VoipBackend

open Library

namespace Msgpuck

/-! ## Values that are skipped -/

theorem readUint_eq_some_iff {w n : ℕ} {p q : Bytes} :
    readUint w p = some (n, q) ↔ ∃ s, s.length = w ∧ p = s ++ q ∧ n = ofBigEndian s := by
  rw [readUint]
  constructor
  · intro h
    split_ifs at h with hlen
    cases h
    exact ⟨p.take w, List.length_take_of_le hlen, (List.take_append_drop w p).symm, rfl⟩
  · rintro ⟨s, rfl, rfl, rfl⟩
    simp

/-- What `mp_next` makes of the kind of a value: so many bytes to skip, and so many values. -/
def shapeOf (p : Bytes) : ValueKind → Option (ℕ × ℕ)
  | .plain bytes values => some (bytes, values)
  | .blob w => (readUint w p).map fun (n, _) => ((w + n) % 2 ^ 32, 0)
  | .array w => (readUint w p).map fun (n, _) => (w, n)
  | .map w => (readUint w p).map fun (n, _) => (w, n * 2 % 2 ^ 32)

theorem ite_eq_shapeOf {P : Prop} [Decidable P] {p : Bytes} {a b : Option (ℕ × ℕ)}
    {kind kind' : ValueKind} (ha : a = shapeOf p kind) (hb : b = shapeOf p kind') :
    (if P then a else b) = shapeOf p (if P then kind else kind') := by
  split_ifs
  · exact ha
  · exact hb

/-- The steps of `mp_next` are those of the table. -/
theorem valueShape_eq (c : UInt8) (p : Bytes) : valueShape c p = shapeOf p (valueKind c) := by
  have hsame : ∀ (w : ℕ) (f g : ℕ → ℕ × ℕ), (∀ n < 256 ^ w, f n = g n) →
      ((readUint w p).map fun (n, _) => f n) = (readUint w p).map fun (n, _) => g n := by
    intro w f g hfg
    cases hread : readUint w p with
    | none => rfl
    | some r =>
      obtain ⟨s, rfl, -, hn⟩ := readUint_eq_some_iff.1 hread
      simp only [Option.map_some, hn, hfg _ (ofBigEndian_lt s)]
  -- Lengths and counts of one or two bytes do not wrap around.
  have hblob1 : ((readUint 1 p).map fun (n, _) => (1 + n, 0)) = shapeOf p (.blob 1) :=
    hsame 1 (fun n => (1 + n, 0)) (fun n => ((1 + n) % 2 ^ 32, 0)) fun n hn => by
      rw [Nat.mod_eq_of_lt (by omega)]
  have hblob2 : ((readUint 2 p).map fun (n, _) => (2 + n, 0)) = shapeOf p (.blob 2) :=
    hsame 2 (fun n => (2 + n, 0)) (fun n => ((2 + n) % 2 ^ 32, 0)) fun n hn => by
      rw [Nat.mod_eq_of_lt (by omega)]
  have hmap2 : ((readUint 2 p).map fun (n, _) => (2, n * 2)) = shapeOf p (.map 2) :=
    hsame 2 (fun n => (2, n * 2)) (fun n => (2, n * 2 % 2 ^ 32)) fun n hn => by
      rw [Nat.mod_eq_of_lt (by omega)]
  rw [valueShape, valueKind]
  repeat' apply ite_eq_shapeOf
  all_goals first
    | rfl
    | exact hblob1
    | exact hblob2
    | exact hmap2

/-- What `mp_next` makes of a tag is what the grammar says of it. -/
theorem leads_iff {c : UInt8} {p q : Bytes} {count : ℕ} :
    Leads (c :: p) count q ↔ ∃ skip, valueShape c p = some (skip, count) ∧ q = p.drop skip := by
  rw [valueShape_eq]
  constructor
  · intro h
    cases h with
    | plain hkind => exact ⟨_, by rw [hkind, shapeOf], rfl⟩
    | @blob _ s r hkind =>
      have hread : readUint s.length (s ++ r) = some (ofBigEndian s, r) :=
        readUint_eq_some_iff.2 ⟨s, rfl, rfl, rfl⟩
      exact ⟨_, by rw [hkind, shapeOf, hread, Option.map_some], rfl⟩
    | @array _ s r hkind =>
      have hread : readUint s.length (s ++ q) = some (ofBigEndian s, q) :=
        readUint_eq_some_iff.2 ⟨s, rfl, rfl, rfl⟩
      exact ⟨s.length, by rw [hkind, shapeOf, hread, Option.map_some], by simp⟩
    | @map _ s r hkind =>
      have hread : readUint s.length (s ++ q) = some (ofBigEndian s, q) :=
        readUint_eq_some_iff.2 ⟨s, rfl, rfl, rfl⟩
      exact ⟨s.length, by rw [hkind, shapeOf, hread, Option.map_some], by simp⟩
  · rintro ⟨skip, hshape, rfl⟩
    cases hkind : valueKind c with
    | plain bytes values =>
      rw [hkind] at hshape
      cases hshape
      exact .plain hkind
    | blob w =>
      rw [hkind, shapeOf, Option.map_eq_some_iff] at hshape
      obtain ⟨⟨n, r⟩, hread, hsame⟩ := hshape
      obtain ⟨s, rfl, rfl, rfl⟩ := readUint_eq_some_iff.1 hread
      cases hsame
      exact .blob hkind
    | array w =>
      rw [hkind, shapeOf, Option.map_eq_some_iff] at hshape
      obtain ⟨⟨n, r⟩, hread, hsame⟩ := hshape
      obtain ⟨s, rfl, rfl, rfl⟩ := readUint_eq_some_iff.1 hread
      cases hsame
      rw [List.drop_left]
      exact .array hkind
    | map w =>
      rw [hkind, shapeOf, Option.map_eq_some_iff] at hshape
      obtain ⟨⟨n, r⟩, hread, hsame⟩ := hshape
      obtain ⟨s, rfl, rfl, rfl⟩ := readUint_eq_some_iff.1 hread
      cases hsame
      rw [List.drop_left]
      exact .map hkind

theorem Leads.unique {p q q' : Bytes} {count count' : ℕ} (h : Leads p count q)
    (h' : Leads p count' q') : count = count' ∧ q = q' := by
  obtain ⟨c, r, rfl⟩ : ∃ c r, p = c :: r := by cases h <;> exact ⟨_, _, rfl⟩
  obtain ⟨skip, hshape, rfl⟩ := leads_iff.1 h
  obtain ⟨skip', hshape', rfl⟩ := leads_iff.1 h'
  cases hshape.symm.trans hshape'
  exact ⟨rfl, rfl⟩

theorem ValuesAt.append {m n : ℕ} {p q r : Bytes} (h : ValuesAt m p q) (hn : ValuesAt n q r) :
    ValuesAt (m + n) p r := by
  induction h with
  | none p => rwa [Nat.zero_add]
  | @next due count p q r hlead hrest ih =>
    have hall := ih hn
    rw [Nat.add_assoc] at hall
    rw [Nat.add_right_comm]
    exact .next hlead hall

/-- What is skipped is values. -/
theorem valuesAt_of_repeatRead {depth due : ℕ} {p q : Bytes}
    (h : repeatRead (mpNextUpTo depth) due p = some q) : ValuesAt due p q := by
  induction depth generalizing due p q with
  | zero =>
    cases due with
    | zero =>
      cases h
      exact .none _
    | succ due => cases h
  | succ depth ihdepth =>
    induction due generalizing p with
    | zero =>
      cases h
      exact .none _
    | succ due ih =>
      obtain ⟨r, hr, hrest⟩ := Option.bind_eq_some_iff.1 h
      cases p with
      | nil => cases hr
      | cons c p =>
        rw [mpNextUpTo_succ] at hr
        obtain ⟨⟨skip, count⟩, hshape, hvalues⟩ := Option.bind_eq_some_iff.1 hr
        exact .next (leads_iff.2 ⟨skip, hshape, rfl⟩) ((ihdepth hvalues).append (ih hrest))

theorem repeatRead_add (f : Bytes → Option Bytes) (m n : ℕ) (p : Bytes) :
    repeatRead f (m + n) p = (repeatRead f m p).bind (repeatRead f n) := by
  induction m generalizing p with
  | zero => rw [Nat.zero_add, repeatRead, Option.bind_some]
  | succ m ih =>
    rw [Nat.succ_add, repeatRead, repeatRead, Option.bind_assoc]
    exact Option.bind_congr fun q _ => ih q

theorem ValuesAt.unique {due : ℕ} {p q q' : Bytes} (h : ValuesAt due p q)
    (h' : ValuesAt due p q') : q = q' := by
  induction h with
  | none p =>
    cases h'
    rfl
  | next hlead hrest ih =>
    cases h' with
    | next hlead' hrest' =>
      obtain ⟨rfl, rfl⟩ := hlead.unique hlead'
      exact ih hrest'

/-- Values are skipped, with a budget of the length of the buffer. -/
theorem repeatRead_of_valuesAt {due : ℕ} {p q : Bytes} (h : ValuesAt due p q) {depth : ℕ}
    (hdepth : p.length ≤ depth) : repeatRead (mpNextUpTo depth) due p = some q := by
  induction h generalizing depth with
  | none p => rfl
  | @next due count p q r hlead hrest ih =>
    obtain ⟨c, s, rfl⟩ : ∃ c s, p = c :: s := by cases hlead <;> exact ⟨_, _, rfl⟩
    obtain ⟨skip, hshape, rfl⟩ := leads_iff.1 hlead
    cases depth with
    | zero => exact absurd hdepth (Nat.not_succ_le_zero _)
    | succ depth =>
      have hlen : (s.drop skip).length ≤ depth := by
        rw [List.length_cons] at hdepth
        rw [List.length_drop]
        omega
      -- One level down, and on this level behind the values in the first one.
      have hdown := ih hlen
      have hhere := ih (Nat.le_succ_of_le hlen)
      rw [repeatRead_add] at hdown hhere
      obtain ⟨t, ht, -⟩ := Option.bind_eq_some_iff.1 hdown
      obtain ⟨t', ht', hq⟩ := Option.bind_eq_some_iff.1 hhere
      have hsame := (valuesAt_of_repeatRead ht').unique (valuesAt_of_repeatRead ht)
      have hfirst : mpNextUpTo (depth + 1) (c :: s) = some t := by
        rw [mpNextUpTo_succ, hshape]
        exact ht
      rw [repeatRead, hfirst, Option.bind_some, ← hsame]
      exact hq

theorem mpNext_eq_some_iff {p q : Bytes} : mpNext p = some q ↔ ValuesAt 1 p q := by
  have hone : repeatRead (mpNextUpTo p.length) 1 p = mpNext p := by
    rw [mpNext, repeatRead]
    exact Option.bind_fun_some _
  rw [← hone]
  exact ⟨valuesAt_of_repeatRead, fun h => repeatRead_of_valuesAt h le_rfl⟩

end Msgpuck

open Msgpuck

section Tokens

variable {β : Type} {S : List Due} {p : Bytes}

theorem read_number {f : ℕ × Bytes → Option β} (hf : ∀ n q, f (n, q) ≠ none ↔ InGrammar S q) :
    (mpDecodeUint p).bind f ≠ none ↔ InGrammar (.number :: S) p := by
  rw [bind_number, InGrammar.number_iff]
  simp only [hf]

theorem read_string {copied : ℕ → Prop} {f : StrRef × Bytes → Option β}
    (hf : ∀ len s q, f (⟨s, len⟩, q) ≠ none ↔ (copied len → len ≤ s.length) ∧ InGrammar S q) :
    (mpDecodeStr p).bind f ≠ none ↔ InGrammar (.string copied :: S) p := by
  rw [bind_string, InGrammar.string_iff]
  simp only [hf]

/-- A string that is not looked at. -/
theorem read_text {f : StrRef × Bytes → Option β}
    (hf : ∀ str q, f (str, q) ≠ none ↔ InGrammar S q) :
    (mpDecodeStr p).bind f ≠ none ↔ InGrammar (.string (fun _ => False) :: S) p :=
  read_string fun len s q => (hf ⟨s, len⟩ q).trans (and_iff_right False.elim).symm

theorem read_value {f : Bytes → Option β} (hf : ∀ q, f q ≠ none ↔ InGrammar S q) :
    (mpNext p).bind f ≠ none ↔ InGrammar (.value :: S) p := by
  rw [InGrammar.value_iff]
  constructor
  · intro h
    cases hnext : mpNext p with
    | none =>
      rw [hnext] at h
      exact absurd rfl h
    | some q =>
      rw [hnext, Option.bind_some, hf] at h
      exact ⟨q, mpNext_eq_some_iff.1 hnext, h⟩
  · rintro ⟨q, hq, h⟩
    rwa [mpNext_eq_some_iff.2 hq, Option.bind_some, hf]

end Tokens

namespace OpenSips

/-! ## The OpenSIPS driver -/

/-- The loop of `check_iproto_status`; what is due behind a good status does not depend on where it
ends. -/
theorem statusLoop_due {β : Type} {want : ℕ} {f : ℤ → Option β} {S : List Due}
    (hbad : f (-1) ≠ none ∧ f (-2) ≠ none) (hS : ∀ q, f 0 ≠ none ↔ InGrammar S q) (entries : ℕ)
    (p : Bytes) :
    (statusLoop want entries p).bind f ≠ none ↔
      InGrammar (.statusEntries want entries :: S) p := by
  induction entries generalizing p with
  | zero => exact (hS p).trans InGrammar.statusEntries_zero_iff.symm
  | succ entries ih =>
    cases p with
    | nil => exact (hS []).trans InGrammar.statusEntries_nil_iff.symm
    | cons c p =>
      rw [InGrammar.statusEntries_succ_iff (List.cons_ne_nil c p), statusLoop, Option.bind_eq_bind,
        Option.bind_assoc, bind_number]
      refine exists_congr fun key => exists_congr fun q => and_congr_right fun _ => ?_
      simp only
      split_ifs with htype hsync
      · rw [Option.bind_assoc, bind_number]
        refine exists_congr fun code => exists_congr fun r => and_congr_right fun _ => ?_
        by_cases hok : code = iprotoOk
        · simp only [hok, ne_eq, not_true, if_false, true_imp_iff]
          exact ih r
        · simp only [hok, ne_eq, not_false_iff, if_true, false_imp_iff, iff_true]
          exact hbad.1
      · rw [Option.bind_assoc, bind_number]
        refine exists_congr fun sync => exists_congr fun r => and_congr_right fun _ => ?_
        by_cases hsame : sync = want
        · simp only [hsame, ne_eq, not_true, if_false, true_imp_iff]
          exact ih r
        · simp only [hsame, ne_eq, not_false_iff, if_true, false_imp_iff, iff_true]
          exact hbad.2
      · rw [Option.bind_eq_bind, Option.bind_assoc]
        exact read_value ih

theorem checkIprotoStatus_due {β : Type} {want : ℕ} {f : ℤ → Option β} {S : List Due}
    (hbad : f (-1) ≠ none ∧ f (-2) ≠ none) (hS : ∀ q, f 0 ≠ none ↔ InGrammar S q)
    (frame : Bytes) :
    (checkIprotoStatus frame want).bind f ≠ none ↔ InGrammar (.status want :: S) frame := by
  rw [checkIprotoStatus, InGrammar.status_iff]
  split_ifs with hnil
  · exact iff_of_true hbad.1 (Or.inl hnil)
  · rw [or_iff_right hnil, Option.bind_assoc, bind_map]
    refine exists_congr fun n => exists_congr fun q => and_congr_right fun _ => ?_
    exact statusLoop_due hbad hS n q

theorem skipEntries_due {β : Type} {f : Bytes → Option β} {S : List Due}
    (hf : ∀ q, f q ≠ none ↔ InGrammar S q) (entries : ℕ) (p : Bytes) :
    (repeatRead skipEntry entries p).bind f ≠ none ↔
      InGrammar (.repeated entries .headerEntry :: S) p := by
  induction entries generalizing p with
  | zero => exact (hf p).trans InGrammar.repeated_zero_iff.symm
  | succ entries ih =>
    rw [InGrammar.repeated_succ_iff, InGrammar.headerEntry_iff, repeatRead, skipEntry,
      Option.bind_assoc, Option.bind_eq_bind, Option.bind_assoc, bind_number]
    refine exists_congr fun key => exists_congr fun q => and_congr_right fun _ => ?_
    exact read_value ih

theorem copyValue_ne_none (memory : Bool) (val : Option Bytes) (vstr : StrRef) :
    copyValue memory val (some vstr) ≠ none ↔ (memory = true → vstr.len ≤ vstr.s.length) := by
  cases memory with
  | false => simp [copyValue]
  | true =>
    simp only [copyValue, if_true, StrRef.bytes]
    split_ifs with h <;> simp [h]

/-- The fields of a tuple up to the value, which is copied if there is memory. -/
theorem tupleValue_due {β : Type} {f : Option StrRef × Bytes → Option β} {S : List Due}
    {memory : Bool} (hnone : ∀ q, f (none, q) ≠ none ↔ InGrammar S q)
    (hsome : ∀ len s q, f (some ⟨s, len⟩, q) ≠ none ↔
      (memory = true → len ≤ s.length) ∧ InGrammar S q) (tupleLen : ℕ) (p : Bytes) :
    (tupleValue tupleLen p).bind f ≠ none ↔ InGrammar (tupleDue tupleLen memory ++ S) p := by
  rw [tupleValue, tupleDue]
  split_ifs
  · simp only [Option.bind_eq_bind, Option.bind_assoc]
    refine read_text fun _ _ => read_text fun _ _ => read_text fun _ _ => ?_
    refine read_number fun _ _ => read_number fun _ _ => read_number fun _ _ => ?_
    exact read_string hsome
  · simp only [Option.bind_eq_bind, Option.bind_assoc]
    exact read_text fun _ _ => read_string hsome
  · exact hnone p

theorem getLoop_due (pkgMalloc : ℕ → Bool) (entries : ℕ) (val : Option Bytes) (p : Bytes) :
    getLoop pkgMalloc entries val p ≠ none ↔ InGrammar [.getEntries pkgMalloc entries] p := by
  induction entries generalizing val p with
  | zero =>
    rw [InGrammar.getEntries_zero_iff, InGrammar.nil_iff]
    exact iff_of_true (Option.some_ne_none _) trivial
  | succ entries ih =>
    rw [getLoop, InGrammar.getEntries_succ_iff, Option.bind_eq_bind, bind_number]
    refine exists_congr fun key => exists_congr fun q => and_congr_right fun _ => ?_
    simp only
    split_ifs
    · rw [Option.bind_eq_bind, bind_array]
      refine exists_congr fun arrLen => exists_congr fun r => and_congr_right fun _ => ?_
      simp only
      split_ifs
      · rw [Option.bind_eq_bind, bind_array]
        refine exists_congr fun tupleLen => exists_congr fun s => and_congr_right fun _ => ?_
        refine tupleValue_due (fun q => ih val q) (fun len s q => ?_) tupleLen s
        rw [← copyValue_ne_none (pkgMalloc entries) val ⟨s, len⟩]
        simp only
        cases hcopy : copyValue (pkgMalloc entries) val (some ⟨s, len⟩) with
        | none => simp
        | some val' =>
          rw [and_iff_right (Option.some_ne_none _)]
          exact ih val' q
      · exact ih val r
    · exact read_value (ih val)

theorem decodeGet_due (pkgMalloc : ℕ → Bool) (frame : Bytes) :
    decodeGet pkgMalloc frame ≠ none ↔ InGrammar [.header, .getBody pkgMalloc] frame := by
  rw [decodeGet, InGrammar.header_iff, Option.bind_eq_bind, bind_map]
  refine exists_congr fun headerMap => exists_congr fun p => and_congr_right fun _ => ?_
  refine skipEntries_due (fun q => ?_) headerMap p
  rw [InGrammar.getBody_iff, bind_map]
  refine exists_congr fun bodyMap => exists_congr fun p => and_congr_right fun _ => ?_
  exact getLoop_due pkgMalloc bodyMap none p

theorem tarantoolGet_due (pkgMalloc : ℕ → Bool) (syncId : ℕ) (frame : Bytes) :
    tarantoolGet pkgMalloc syncId frame ≠ none ↔
      InGrammar (getDue pkgMalloc syncId frame) frame := by
  rw [tarantoolGet, getDue]
  refine checkIprotoStatus_due ?_ (fun q => ?_) frame
  · exact ⟨Option.some_ne_none _, Option.some_ne_none _⟩
  · rw [InGrammar.again_iff, ← decodeGet_due]
    simp only [lt_irrefl, if_false]
    cases decodeGet pkgMalloc frame <;> simp

end OpenSips

namespace RtpEngine

/-! ## The RTPEngine driver -/

/-- The decoding in `rtpe_tarantool_restore_calls`, from a frame that has arrived: of the answer to
another request only the header is read. -/
def decodeRestore (restoreCb : List RestoredCall → ℤ) (sync : ℕ) (frame : Bytes) :
    Option (Option (List RestoredCall)) := do
  let (msgSync, p) ← headerSync frame
  if msgSync ≠ sync then some none else (decodeCalls restoreCb p).map some

theorem headerLoop_due {β : Type} {f : ℕ × Bytes → Option β} {want : ℕ} {S : List Due}
    (hf : ∀ sync q, f (sync, q) ≠ none ↔ (sync = want → InGrammar S q)) (msgSync entries : ℕ)
    (p : Bytes) :
    (headerLoop msgSync entries p).bind f ≠ none ↔
      InGrammar (.restoreEntries want msgSync entries :: S) p := by
  induction entries generalizing msgSync p with
  | zero => exact (hf msgSync p).trans InGrammar.restoreEntries_zero_iff.symm
  | succ entries ih =>
    rw [InGrammar.restoreEntries_succ_iff, headerLoop, Option.bind_eq_bind, Option.bind_assoc,
      bind_number]
    refine exists_congr fun key => exists_congr fun q => and_congr_right fun _ => ?_
    simp only
    split_ifs
    · rw [Option.bind_assoc, bind_number]
      exact exists_congr fun sync => exists_congr fun r => and_congr_right fun _ => ih sync r
    · rw [Option.bind_eq_bind, Option.bind_assoc]
      exact read_value fun q => ih msgSync q

/-! ### Keys and values of a call -/

theorem readInto_due {β : Type} {size : ℕ} {old : Bytes} {f : Bytes × Bytes → Option β}
    {S : List Due} (hf : ∀ new q, f (new, q) ≠ none ↔ InGrammar S q) (p : Bytes) :
    (readInto size old p).bind f ≠ none ↔ InGrammar (.string (· < size) :: S) p := by
  rw [readInto]
  simp only [Option.bind_eq_bind, Option.bind_assoc]
  refine read_string fun len s q => ?_
  simp only [copyInto, StrRef.bytes]
  split_ifs with hsize hlen
  · exact (hf _ _).trans (and_iff_right fun _ => hlen).symm
  · exact iff_of_false (fun h => h rfl) fun h => hlen (h.1 hsize)
  · exact (hf _ _).trans (and_iff_right fun h => absurd h hsize).symm

theorem readPort_due {β : Type} {f : Int32 × Bytes → Option β} {S : List Due}
    (hf : ∀ port q, f (port, q) ≠ none ↔ InGrammar S q) (p : Bytes) :
    (readPort p).bind f ≠ none ↔ InGrammar (.number :: S) p := by
  rw [readPort]
  simp only [Option.bind_eq_bind, Option.bind_assoc]
  exact read_number fun n q => hf _ q

/-- A key that goes beyond the end has nothing behind it, which every entry needs. -/
theorem bind_key {β : Type} {f : StrRef × Bytes → Option β} (hend : ∀ key, f (key, []) = none)
    {p : Bytes} : (mpDecodeStr p).bind f ≠ none ↔ ∃ key q,
      strTags.At p key.length (key ++ q) ∧ f (⟨key ++ q, key.length⟩, q) ≠ none := by
  rw [bind_string]
  constructor
  · rintro ⟨len, q, hat, hf⟩
    rcases Nat.lt_or_ge q.length len with hlong | hlen
    · rw [List.drop_eq_nil_of_le hlong.le, hend] at hf
      exact absurd rfl hf
    · refine ⟨q.take len, q.drop len, ?_, ?_⟩
      · rwa [List.take_append_drop, List.length_take_of_le hlen]
      · rwa [List.take_append_drop, List.length_take_of_le hlen]
  · rintro ⟨key, q, hat, hf⟩
    exact ⟨key.length, key ++ q, hat, by rwa [List.drop_left]⟩

theorem test_eq_none {α : Type} {yes no : Option α} {literal : Bytes} {key : StrRef}
    (hyes : yes = none) (hno : no = none) :
    ((strncmpEq key.s literal key.len).bind fun same => if same = true then yes else no) =
      none := by
  rw [hyes, hno]
  cases strncmpEq key.s literal key.len <;> simp

theorem bind_of_eq_none {α β : Type} {x : Option α} {g : α → Option β} (h : x = none) :
    x.bind g = none := by
  rw [h, Option.bind_none]

theorem payloadEntry_due {β : Type} {g : RestoredCall × Bytes → Option β} {S : List Due}
    {call : RestoredCall}
    (hg : ∀ call' q, call'.callId = call.callId → (g (call', q) ≠ none ↔ InGrammar S q))
    (p : Bytes) : (payloadEntry call p).bind g ≠ none ↔ InGrammar (.payloadEntry :: S) p := by
  rw [payloadEntry, Option.bind_eq_bind, Option.bind_assoc, InGrammar.payloadEntry_iff, bind_key]
  · refine exists_congr fun key => exists_congr fun q => and_congr_right fun _ => ?_
    simp only [Option.bind_eq_bind, strncmpEq_prefixMatch, Option.bind_some, payloadDue,
      payloadTable, List.find?_cons]
    by_cases hcaller : prefixMatch key (ascii "caller_ip") = true
    · simp only [hcaller, if_true, Option.bind_assoc]
      exact readInto_due (fun _ q => hg _ q (by rfl)) q
    by_cases hcallee : prefixMatch key (ascii "callee_ip") = true
    · simp only [hcaller, hcallee, if_true, if_false, Bool.false_eq_true, Option.bind_assoc]
      exact readInto_due (fun _ q => hg _ q (by rfl)) q
    by_cases hfrom : prefixMatch key (ascii "caller_port") = true
    · simp only [hcaller, hcallee, hfrom, if_true, if_false, Bool.false_eq_true, Option.bind_assoc]
      exact readPort_due (fun _ q => hg _ q (by rfl)) q
    by_cases hto : prefixMatch key (ascii "callee_port") = true
    · simp only [hcaller, hcallee, hfrom, hto, if_true, if_false, Bool.false_eq_true,
        Option.bind_assoc]
      exact readPort_due (fun _ q => hg _ q (by rfl)) q
    by_cases hsuite : prefixMatch key (ascii "srtp_suite") = true
    · simp only [hcaller, hcallee, hfrom, hto, hsuite, if_true, if_false, Bool.false_eq_true,
        Option.bind_assoc]
      exact readInto_due (fun _ q => hg _ q (by rfl)) q
    simp only [hcaller, hcallee, hfrom, hto, hsuite, if_false, Bool.false_eq_true,
      List.find?_nil, Option.bind_assoc]
    exact read_value fun q => hg call q rfl
  · intro key
    exact bind_of_eq_none <| test_eq_none rfl <| test_eq_none rfl <| test_eq_none rfl <|
      test_eq_none rfl <| test_eq_none rfl rfl

theorem payloadLoop_due {β : Type} {g : RestoredCall × Bytes → Option β} {S : List Due}
    {call : RestoredCall}
    (hg : ∀ call' q, call'.callId = call.callId → (g (call', q) ≠ none ↔ InGrammar S q))
    (entries : ℕ) (p : Bytes) : (entriesLoop payloadEntry entries call p).bind g ≠ none ↔
      InGrammar (.repeated entries .payloadEntry :: S) p := by
  induction entries generalizing call p with
  | zero => exact (hg call p rfl).trans InGrammar.repeated_zero_iff.symm
  | succ entries ih =>
    rw [entriesLoop, InGrammar.repeated_succ_iff, Option.bind_assoc]
    refine payloadEntry_due (fun call' q hsame => ?_) p
    exact ih (fun call₂ q hsame' => hg call₂ q (hsame'.trans hsame)) q

/-- A call has a Call-ID if there is something in the buffer for it. -/
def isNamed (call : RestoredCall) : Bool := decide (call.callId ≠ [])

theorem isNamed_copy {call : RestoredCall} {len : ℕ} {s : Bytes} (hlen : len < 128)
    (hin : len ≤ s.length) :
    isNamed { call with callId := (s.take len).takeWhile fun b => b ≠ 0 } =
      namedBy (isNamed call) len s := by
  rw [isNamed, namedBy, if_pos hlen, decide_eq_decide]
  cases len with
  | zero => simp
  | succ len =>
    cases s with
    | nil => simp at hin
    | cons b s => by_cases hb : b = 0 <;> simp [hb]

theorem nameOf_callNames (key : Bytes) : nameOf callNames key =
    if prefixMatch key (ascii "call_id") = true then some (ascii "call_id")
    else if prefixMatch key (ascii "node_id") = true then some (ascii "node_id")
    else if prefixMatch key (ascii "payload") = true then some (ascii "payload") else none := by
  simp only [nameOf, callNames, List.find?_cons, List.find?_nil]
  split_ifs <;> simp_all

theorem callEntry_due {β : Type} {g : RestoredCall × Bytes → Option β} {S : List Due}
    {left entries : ℕ}
    (hg : ∀ call q, g (call, q) ≠ none ↔
      InGrammar (.callEntries (isNamed call) entries left :: S) q)
    (call : RestoredCall) (p : Bytes) : (callEntry call p).bind g ≠ none ↔
      InGrammar (.callEntries (isNamed call) (entries + 1) left :: S) p := by
  have hnames := InGrammar.callNames_ne
  rw [callEntry, Option.bind_eq_bind, Option.bind_assoc, InGrammar.callEntries_succ_iff, bind_key]
  · refine exists_congr fun key => exists_congr fun q => and_congr_right fun _ => ?_
    simp only [Option.bind_eq_bind, strncmpEq_prefixMatch, Option.bind_some, nameOf_callNames]
    by_cases hid : prefixMatch key (ascii "call_id") = true
    · simp only [hid, if_true, Option.bind_assoc, readInto, bind_string, Option.bind_eq_bind]
      refine exists_congr fun len => exists_congr fun s => and_congr_right fun _ => ?_
      simp only [copyInto, StrRef.bytes]
      split_ifs with hsize hin
      · refine (hg _ _).trans ?_
        rw [and_iff_right fun _ => hin, ← isNamed_copy hsize hin]
      · exact iff_of_false (fun h => h rfl) fun h => hin (h.1 hsize)
      · refine (hg _ _).trans ?_
        rw [and_iff_right fun h => absurd h hsize, namedBy, if_neg hsize]
    by_cases hnode : prefixMatch key (ascii "node_id") = true
    · simp only [hid, hnode, if_true, if_false, Bool.false_eq_true, Option.some.injEq, hnames,
        Option.bind_assoc]
      exact readInto_due (fun _ q => hg _ q) q
    have hskip : ((mpNext q).bind fun p => pure (call, p)).bind g ≠ none ↔
        InGrammar (.value :: .callEntries (isNamed call) entries left :: S) q := by
      rw [Option.bind_assoc]
      exact read_value fun q => hg call q
    by_cases hkey : prefixMatch key (ascii "payload") = true
    · cases q with
      | nil =>
        have hnone : mpNext [] = none := rfl
        simpa [hid, hnode, hkey, hnames, peek, hnone] using hskip
      | cons c q =>
        by_cases hmap : c &&& 0xf0 = 0x80
        · have hsmall : (peek (c :: q)).map (fun tag => decide (tag &&& 0xf0 = 0x80)) =
              some true := by simp [peek, hmap]
          have htag : ∃ tag, (c :: q).head? = some tag ∧ tag &&& 0xf0 = 0x80 := ⟨c, rfl, hmap⟩
          simp only [hid, hnode, hkey, hnames, hsmall, htag, if_true, if_false, Bool.false_eq_true,
            Option.some.injEq, and_true, Option.bind_some, Option.bind_assoc, bind_map]
          refine exists_congr fun size => exists_congr fun r => and_congr_right fun _ => ?_
          exact payloadLoop_due (fun call' q hsame => by rw [hg, isNamed, isNamed, hsame]) size r
        · simpa [hid, hnode, hkey, hnames, peek, hmap] using hskip
    · simpa [hid, hnode, hkey] using hskip
  · intro key
    refine bind_of_eq_none <| test_eq_none rfl <| test_eq_none rfl ?_
    cases strncmpEq key.s (ascii "payload") key.len with
    | none => rfl
    | some isPayload => cases isPayload <;> rfl

/-! ### Calls -/

theorem callEntries_due {β : Type} {g : RestoredCall × Bytes → Option β} {S : List Due} {left : ℕ}
    (hg : ∀ call q, g (call, q) ≠ none ↔ InGrammar (.callEntries (isNamed call) 0 left :: S) q)
    (entries : ℕ) (call : RestoredCall) (p : Bytes) :
    (entriesLoop callEntry entries call p).bind g ≠ none ↔
      InGrammar (.callEntries (isNamed call) entries left :: S) p := by
  induction entries generalizing call p with
  | zero => exact hg call p
  | succ entries ih =>
    rw [entriesLoop, Option.bind_assoc]
    exact callEntry_due ih call p

/-- One of the calls; behind it a call with a Call-ID may be the last. -/
theorem callItem_due {β : Type} {g : RestoredCall × Bytes → Option β} {S : List Due} {left : ℕ}
    (hg : ∀ call q, g (call, q) ≠ none ↔
      (isNamed call = true → InGrammar S q) ∧ InGrammar (.calls left :: S) q) (p : Bytes) :
    (callItem p).bind g ≠ none ↔ InGrammar (.calls (left + 1) :: S) p := by
  have hblank : isNamed .blank = false := rfl
  cases p with
  | nil => exact iff_of_false (fun h => h rfl) InGrammar.not_calls_nil
  | cons c p =>
    rw [callItem, InGrammar.calls_succ_iff]
    simp only [peek, List.head?_cons, Option.bind_eq_bind, Option.bind_some]
    split_ifs with htag
    · rw [Option.bind_assoc, bind_map]
      refine exists_congr fun entries => exists_congr fun q => and_congr_right fun _ => ?_
      rw [← hblank]
      refine callEntries_due (fun call q => ?_) entries .blank q
      rw [hg, InGrammar.callEntries_zero_iff]
    · rw [Option.bind_assoc]
      refine read_value fun q => (hg .blank q).trans ?_
      rw [hblank]
      exact and_iff_right fun h => absurd h Bool.false_ne_true

/-! ### Any callback -/

/-- What `F` does depends on what the callback returns for longer lists of calls only. -/
def LongerOnly {β : Type} (F : (List RestoredCall → ℤ) → List RestoredCall → Bytes → Option β) :
    Prop :=
  ∀ cb cb' calls p, (∀ l, calls.length < l.length → cb l = cb' l) → F cb calls p = F cb' calls p

theorem forall_bind_ne_none {ι α β : Type} [Nonempty ι] (x : Option α) (f : ι → α → Option β) :
    (∀ i, x.bind (f i) ≠ none) ↔
      (x.bind fun a => open Classical in if ∀ i, f i a ≠ none then some () else none) ≠ none := by
  cases x with
  | none => simp
  | some a => simp

theorem callsLoop_longerOnly {β : Type}
    {F : (List RestoredCall → ℤ) → List RestoredCall → Bytes → Option β} (hF : LongerOnly F)
    (n : ℕ) : LongerOnly fun cb calls p =>
      (callsLoop cb n calls p).bind fun (calls, p) => F cb calls p := by
  intro cb cb' calls p hsame
  induction n generalizing calls p with
  | zero => exact hF cb cb' calls p hsame
  | succ n ih =>
    simp only [callsLoop, Option.bind_eq_bind, Option.bind_assoc]
    refine Option.bind_congr fun r _ => ?_
    obtain ⟨call, q⟩ := r
    have hlen : (calls ++ [call]).length = calls.length + 1 := by simp
    have hnext : ∀ l, (calls ++ [call]).length < l.length → cb l = cb' l := fun l hl =>
      hsame l (by omega)
    simp only
    rw [← hsame (calls ++ [call]) (by omega)]
    split_ifs
    · exact ih calls q hsame
    · exact hF cb cb' _ q hnext
    · exact ih _ q hnext

theorem ite_some_ne_none {P : Prop} {_ : Decidable P} :
    (if P then some () else none) ≠ none ↔ P := by
  split_ifs with h <;> simp [h]

theorem callsLoop_due {β : Type}
    {F : (List RestoredCall → ℤ) → List RestoredCall → Bytes → Option β} (hF : LongerOnly F)
    {S : List Due} (hS : ∀ calls q, (∀ cb, F cb calls q ≠ none) ↔ InGrammar S q) (n : ℕ)
    (calls : List RestoredCall) (p : Bytes) :
    (∀ cb, ((callsLoop cb n calls p).bind fun (calls, p) => F cb calls p) ≠ none) ↔
      InGrammar (.calls n :: S) p := by
  induction n generalizing calls p with
  | zero => exact (hS calls p).trans InGrammar.calls_zero_iff.symm
  | succ n ih =>
    simp only [callsLoop, Option.bind_eq_bind, Option.bind_assoc]
    rw [forall_bind_ne_none]
    refine callItem_due (fun call q => ite_some_ne_none.trans ?_) p
    simp only [isNamed, decide_eq_true_eq]
    by_cases hid : call.callId = []
    · simp only [if_pos hid]
      rw [ih]
      exact (and_iff_right fun h => absurd hid h).symm
    · simp only [if_neg hid]
      rw [← hS (calls ++ [call]) q, ← ih (calls ++ [call]) q]
      have hlonger : ∀ (cb : List RestoredCall → ℤ) (z : ℤ) (l : List RestoredCall),
          (calls ++ [call]).length < l.length →
            Function.update cb (calls ++ [call]) z l = cb l := by
        intro cb z l hl
        refine Function.update_of_ne ?_ z cb
        rintro rfl
        exact lt_irrefl _ hl
      constructor
      · -- The callback that ends the list here, and the one that does not.
        intro h
        refine ⟨fun _ cb => ?_, fun cb => ?_⟩
        · have hstop := h (Function.update cb (calls ++ [call]) 1)
          rw [Function.update_self, if_pos one_ne_zero, Option.bind_some] at hstop
          exact fun hnone => hstop ((hF _ cb _ q (hlonger cb 1)).trans hnone)
        · have hgo := h (Function.update cb (calls ++ [call]) 0)
          rw [Function.update_self, if_neg (not_not.2 rfl)] at hgo
          have hsame := callsLoop_longerOnly hF n _ cb _ q (hlonger cb 0)
          exact fun hnone => hgo (hsame.trans hnone)
      · rintro ⟨hstop, hgo⟩ cb
        split_ifs
        · exact hstop hid cb
        · exact hgo cb

theorem dataLoop_longerOnly {β : Type}
    {F : (List RestoredCall → ℤ) → List RestoredCall → Bytes → Option β} (hF : LongerOnly F)
    (n : ℕ) : LongerOnly fun cb calls p =>
      (dataLoop cb n calls p).bind fun (calls, p) => F cb calls p := by
  induction n with
  | zero => exact hF
  | succ n ih =>
    intro cb cb' calls p hsame
    simp only [dataLoop, Option.bind_eq_bind, Option.bind_assoc]
    refine Option.bind_congr fun tag _ => ?_
    split_ifs
    · simp only [Option.bind_assoc]
      exact Option.bind_congr fun r _ => callsLoop_longerOnly ih r.1 cb cb' calls r.2 hsame
    · simp only [Option.bind_assoc]
      exact Option.bind_congr fun q _ => ih cb cb' calls q hsame

theorem dataLoop_due {β : Type}
    {F : (List RestoredCall → ℤ) → List RestoredCall → Bytes → Option β} (hF : LongerOnly F)
    {S : List Due} (hS : ∀ calls q, (∀ cb, F cb calls q ≠ none) ↔ InGrammar S q) (n : ℕ)
    (calls : List RestoredCall) (p : Bytes) :
    (∀ cb, ((dataLoop cb n calls p).bind fun (calls, p) => F cb calls p) ≠ none) ↔
      InGrammar (.repeated n .dataItem :: S) p := by
  induction n generalizing calls p with
  | zero => exact (hS calls p).trans InGrammar.repeated_zero_iff.symm
  | succ n ih =>
    rw [InGrammar.repeated_succ_iff]
    cases p with
    | nil => exact iff_of_false (fun h => h (fun _ => 0) rfl) InGrammar.not_dataItem_nil
    | cons c p =>
      rw [InGrammar.dataItem_iff]
      simp only [dataLoop, Option.bind_eq_bind, peek, List.head?_cons, Option.bind_some]
      split_ifs with htag
      · simp only [Option.bind_assoc]
        rw [forall_bind_ne_none, bind_array]
        refine exists_congr fun count => exists_congr fun q => and_congr_right fun _ => ?_
        refine ite_some_ne_none.trans ?_
        exact callsLoop_due (dataLoop_longerOnly hF n) ih count calls q
      · simp only [Option.bind_assoc]
        rw [forall_bind_ne_none]
        exact read_value fun q => ite_some_ne_none.trans (ih calls q)

theorem bodyLoop_longerOnly (n : ℕ) : LongerOnly fun cb calls p => bodyLoop cb n calls p := by
  induction n with
  | zero => exact fun _ _ _ _ _ => rfl
  | succ n ih =>
    intro cb cb' calls p hsame
    simp only [bodyLoop, Option.bind_eq_bind]
    refine Option.bind_congr fun r _ => ?_
    split_ifs
    · exact Option.bind_congr fun r _ => dataLoop_longerOnly ih r.1 cb cb' calls r.2 hsame
    · exact Option.bind_congr fun q _ => ih cb cb' calls q hsame

theorem bodyLoop_due (n : ℕ) (calls : List RestoredCall) (p : Bytes) :
    (∀ cb, bodyLoop cb n calls p ≠ none) ↔ InGrammar [.repeated n .bodyEntry] p := by
  induction n generalizing calls p with
  | zero =>
    rw [InGrammar.repeated_zero_iff, InGrammar.nil_iff]
    exact iff_of_true (fun _ => Option.some_ne_none _) trivial
  | succ n ih =>
    simp only [bodyLoop, Option.bind_eq_bind]
    rw [forall_bind_ne_none, InGrammar.repeated_succ_iff, InGrammar.bodyEntry_iff, bind_number]
    refine exists_congr fun key => exists_congr fun q => and_congr_right fun _ => ?_
    refine ite_some_ne_none.trans ?_
    simp only
    split_ifs
    · rw [forall_bind_ne_none, bind_array]
      refine exists_congr fun m => exists_congr fun q => and_congr_right fun _ => ?_
      refine ite_some_ne_none.trans ?_
      exact dataLoop_due (bodyLoop_longerOnly n) ih m calls q
    · rw [forall_bind_ne_none]
      exact read_value fun q => ite_some_ne_none.trans (ih calls q)

theorem decodeCalls_ne_none (restoreCb : List RestoredCall → ℤ) (p : Bytes) :
    decodeCalls restoreCb p ≠ none ↔
      ((mpDecodeMap p).bind fun (bodyMap, p) => bodyLoop restoreCb bodyMap [] p) ≠ none := by
  rw [decodeCalls]
  cases mpDecodeMap p with
  | none => exact iff_of_false (fun h => h rfl) fun h => h rfl
  | some r =>
    simp only [Option.bind_eq_bind, Option.bind_some]
    cases bodyLoop restoreCb r.1 [] r.2 <;> simp

theorem decodeRestore_due (sync : ℕ) (frame : Bytes) :
    (∀ restoreCb, decodeRestore restoreCb sync frame ≠ none) ↔
      InGrammar (restoreDue sync) frame := by
  simp only [decodeRestore, headerSync, Option.bind_eq_bind, Option.bind_assoc]
  rw [forall_bind_ne_none, restoreDue, InGrammar.restoreHeader_iff, bind_map]
  refine exists_congr fun n => exists_congr fun p => and_congr_right fun _ => ?_
  refine ite_some_ne_none.trans ?_
  simp only
  rw [forall_bind_ne_none]
  refine headerLoop_due (fun msgSync q => ite_some_ne_none.trans ?_) 0 n p
  by_cases hsync : msgSync = sync
  · have hcalls : ∀ cb, (decodeCalls cb q).map some ≠ none ↔
        ((mpDecodeMap q).bind fun (n, p) => bodyLoop cb n [] p) ≠ none := by
      intro cb
      rw [← decodeCalls_ne_none, ne_eq, Option.map_eq_none_iff]
    simp only [hsync, ne_eq, not_true, if_false, true_imp_iff]
    simp only [hcalls]
    rw [forall_bind_ne_none, InGrammar.restoreBody_iff, bind_map]
    refine exists_congr fun n => exists_congr fun r => and_congr_right fun _ => ?_
    exact ite_some_ne_none.trans (bodyLoop_due n [] r)
  · simp [hsync]

end RtpEngine

/-! ## Frames that are not inside -/

theorem mpNext_arrays (n : ℕ) : mpNext (List.replicate n 0x91) = none := by
  have hnot : ∀ q, ¬ ValuesAt 1 (List.replicate n 0x91) q := by
    intro q h
    induction n with
    | zero => exact not_valuesAt_nil h
    | succ n ih =>
      cases h with
      | next hlead hrest =>
        obtain ⟨skip, hshape, rfl⟩ := leads_iff.1 hlead
        cases hshape
        exact ih hrest
  rw [Option.eq_none_iff_forall_ne_some]
  intro q h
  exact hnot q (mpNext_eq_some_iff.1 h)

/-- **No length is safe**: of every length there is a frame both drivers read beyond. -/
theorem exists_beyond {n : ℕ} (hn : 0 < n) :
    ∃ frame : Bytes, frame.length = n ∧
      (∀ pkgMalloc syncId, OpenSips.tarantoolGet pkgMalloc syncId frame = none) ∧
      ∀ restoreCb sync, RtpEngine.decodeRestore restoreCb sync frame = none := by
  obtain rfl | ⟨m, rfl⟩ : n = 1 ∨ ∃ m, n = m + 2 := by
    rcases n with _ | _ | m
    · cases hn
    · exact Or.inl rfl
    · exact Or.inr ⟨m, rfl⟩
  · exact ⟨[0x81], rfl, fun _ _ => rfl, fun _ _ => rfl⟩
  · have harrays := mpNext_arrays m
    refine ⟨0x81 :: 0x05 :: List.replicate m 0x91, by simp, fun pkgMalloc syncId => ?_,
      fun restoreCb sync => ?_⟩
    · have hstatus : OpenSips.checkIprotoStatus (0x81 :: 0x05 :: List.replicate m 0x91) syncId =
          none := by
        show (mpNext (List.replicate m 0x91)).bind _ = none
        rw [harrays]
        rfl
      rw [OpenSips.tarantoolGet, hstatus]
      rfl
    · have hheader : RtpEngine.headerSync (0x81 :: 0x05 :: List.replicate m 0x91) = none := by
        show (mpNext (List.replicate m 0x91)).bind _ = none
        rw [harrays]
        rfl
      rw [RtpEngine.decodeRestore, hheader]
      rfl

/-- **The drivers stay inside exactly the frames of the grammar**, whatever the callback of
`rtpe_tarantool_restore_calls` returns. -/
theorem staysInside_iff (frame : Bytes) (sync : ℕ) (pkgMalloc : ℕ → Bool) :
    (OpenSips.checkIprotoStatus frame sync ≠ none ↔ InGrammar (statusDue sync) frame) ∧
    (OpenSips.tarantoolGet pkgMalloc sync frame ≠ none ↔
      InGrammar (getDue pkgMalloc sync frame) frame) ∧
    ((∀ restoreCb, RtpEngine.decodeRestore restoreCb sync frame ≠ none) ↔
      InGrammar (restoreDue sync) frame) := by
  refine ⟨?_, OpenSips.tarantoolGet_due pkgMalloc sync frame,
    RtpEngine.decodeRestore_due sync frame⟩
  rw [← Option.bind_fun_some (OpenSips.checkIprotoStatus frame sync)]
  refine OpenSips.checkIprotoStatus_due ?_ (fun q => ?_) frame
  · exact ⟨Option.some_ne_none _, Option.some_ne_none _⟩
  · exact iff_of_true (Option.some_ne_none _) (.nil q)

/-- A map of one entry, and nothing else. -/
theorem not_staysInside_bareMap :
    ¬ OpenSips.tarantoolGet (fun _ => true) 1 [0x81] ≠ none ∧
      ¬ RtpEngine.decodeRestore (fun _ => 0) 1 [0x81] ≠ none :=
  ⟨not_not.2 rfl, not_not.2 rfl⟩

end VoipBackend
