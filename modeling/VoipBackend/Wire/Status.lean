import VoipBackend.Wire.OpenSips
import VoipBackend.Wire.Replies
import VoipBackend.Wire.Skipping

/-!
# The verdict on a header

`check_iproto_status` goes over the header of an answer once, in the order the server wrote it in,
and stops at the first value it does not accept.  Whatever else is in the header is skipped by
`mp_next`.  As the keys are distinct, neither their order nor the other keys matter
(`checkIprotoStatus_verdict`).
-/

namespace VoipBackend

open Library MsgPack

namespace Msgpuck

/-! ## What is skipped in a short answer -/

/-- The formats `mp_next` has no case for. -/
def FloatOrExt : Item → Prop
  | .float32 _ => True
  | .float64 _ => True
  | .fixext _ _ _ => True
  | .ext _ _ _ => True
  | _ => False

theorem plain_of_number {item part : Item} {n : ℕ} (h : item.number = some n)
    (hpart : part.Within item) : ¬ FloatOrExt part := by
  cases hpart with
  | refl =>
    cases item with
    | fixint n => exact id
    | uint w n => exact id
    | _ => cases h
  | child hchild _ =>
    cases item with
    | fixint n => cases hchild
    | uint w n => cases hchild
    | _ => cases h

theorem length_le_of_within {item part : Item} (h : part.Within item) :
    part.bytes.length ≤ item.bytes.length := by
  induction h with
  | refl => exact le_rfl
  | child hchild _ ih =>
    refine ih.trans ((Item.length_children hchild).trans ?_)
    rw [Item.bytes, List.length_cons]
    exact Nat.le_succ _

theorem length_mul_two_le (entries : List (Item × Item)) :
    entries.length * 2 ≤ (entriesBytes entries).length := by
  induction entries with
  | nil => exact Nat.zero_le _
  | cons e entries ih =>
    rw [entriesBytes_cons, List.length_cons, List.length_append, List.length_append, Item.bytes,
      Item.bytes, List.length_cons, List.length_cons]
    omega

/-- The lengths and counts of a value of less than 4 GiB do not wrap around. -/
theorem known_of_length {item : Item} (hplain : ¬ FloatOrExt item)
    (hlen : item.bytes.length < 2 ^ 32) : Known item := by
  rw [Item.bytes, List.length_cons] at hlen
  cases item with
  | float32 bits => exact hplain trivial
  | float64 bits => exact hplain trivial
  | fixext e type data => exact hplain trivial
  | ext w type data => exact hplain trivial
  | str w s =>
    rw [Item.payload, List.length_append, length_bigEndian] at hlen
    rw [Known]
    omega
  | bin w s =>
    rw [Item.payload, List.length_append, length_bigEndian] at hlen
    rw [Known]
    omega
  | map w entries =>
    have := length_mul_two_le entries
    rw [Item.payload, List.length_append, length_bigEndian] at hlen
    rw [Known]
    omega
  | _ => trivial

theorem skipsExactly_of_plain {item : Item} (hvalid : item.Valid)
    (hplain : ∀ part : Item, part.Within item → ¬ FloatOrExt part)
    (hlen : item.bytes.length < 2 ^ 32) : SkipsExactly item :=
  skipsExactly_of_known hvalid fun part hpart =>
    known_of_length (hplain part hpart) ((length_le_of_within hpart).trans_lt hlen)

end Msgpuck

/-- A header has one entry for a key. -/
theorem Header.entry_unique (h : Header) {e e' : Item × Item} (he : e ∈ h.entries)
    (he' : e' ∈ h.entries) {k : ℕ} (hk : e.1.number = some k) (hk' : e'.1.number = some k) :
    e = e' :=
  List.inj_on_of_nodup_map h.distinct he he' (by
    rw [Item.value_of_number hk, Item.value_of_number hk'])

namespace OpenSips

open Msgpuck

/-! ## The loop -/

/-- An entry the loop reads as it is meant. -/
def Readable (e : Item × Item) : Prop :=
  ∃ k, e.1.number = some k ∧ SkipsExactly e.2 ∧
    (k = iprotoRequestType ∨ k = iprotoSync → ∃ v, e.2.number = some v)

/-- The values under the two keys `check_iproto_status` looks at. -/
def Agreeing (syncId : ℕ) (entries : List (Item × Item)) : Prop :=
  ∀ e ∈ entries, (e.1.number = some iprotoRequestType → e.2.number = some iprotoOk) ∧
    (e.1.number = some iprotoSync → e.2.number = some syncId)

/-- What the loop makes of the entries: the first value it does not accept decides. -/
def verdict (wantSync : ℕ) : List (Item × Item) → ℤ
  | [] => 0
  | (key, val) :: entries =>
      if key.number = some iprotoRequestType ∧ val.number ≠ some iprotoOk then -1
      else if key.number = some iprotoSync ∧ val.number ≠ some wantSync then -2
      else verdict wantSync entries

theorem statusLoop_verdict {entries : List (Item × Item)} (hvalid : EntriesValid entries)
    (hread : ∀ e ∈ entries, Readable e) (wantSync : ℕ) (rest : Bytes) :
    statusLoop wantSync entries.length (entriesBytes entries ++ rest) =
      some (verdict wantSync entries) := by
  induction entries with
  | nil => rfl
  | cons e entries ih =>
    obtain ⟨key, val⟩ := e
    rw [EntriesValid] at hvalid
    obtain ⟨⟨hkey, hval⟩, hvalid⟩ := hvalid
    obtain ⟨⟨k, hk, hskip, hnumber⟩, hread⟩ := List.forall_mem_cons.1 hread
    have hrest := ih hvalid hread
    rw [entriesBytes_cons_append, List.length_cons, Item.bytes, List.cons_append, statusLoop,
      ← List.cons_append, ← Item.bytes, mpDecodeUint_number hkey hk, verdict]
    simp only [Option.bind_eq_bind, Option.bind_some, hk, Option.some.injEq]
    by_cases htype : k = iprotoRequestType
    · obtain ⟨v, hv⟩ := hnumber (Or.inl htype)
      have hother : k ≠ iprotoSync := by
        rw [htype]
        decide
      simp only [htype, if_true, mpDecodeUint_number hval hv, Option.bind_some, hv, true_and,
        ne_eq, Option.some.injEq]
      rw [← htype, if_neg (not_and_of_not_left _ hother), hrest]
      split_ifs <;> rfl
    · by_cases hsync : k = iprotoSync
      · obtain ⟨v, hv⟩ := hnumber (Or.inr hsync)
        rw [if_neg htype, if_neg (not_and_of_not_left _ htype)]
        simp only [hsync, if_true, mpDecodeUint_number hval hv, Option.bind_some, hv, true_and,
          ne_eq, Option.some.injEq, hrest]
        split_ifs <;> rfl
      · rw [if_neg htype, if_neg hsync, if_neg (not_and_of_not_left _ htype),
          if_neg (not_and_of_not_left _ hsync), hskip, Option.bind_some, hrest]

/-- The verdict is good if no value is refused. -/
theorem verdict_eq_zero_iff (wantSync : ℕ) (entries : List (Item × Item)) :
    verdict wantSync entries = 0 ↔ Agreeing wantSync entries := by
  induction entries with
  | nil => simp [verdict, Agreeing]
  | cons e entries ih =>
    obtain ⟨key, val⟩ := e
    rw [verdict, Agreeing, List.forall_mem_cons]
    by_cases htype : key.number = some iprotoRequestType ∧ val.number ≠ some iprotoOk
    · rw [if_pos htype]
      refine iff_of_false (by norm_num) ?_
      rintro ⟨⟨hok, -⟩, -⟩
      exact htype.2 (hok htype.1)
    · by_cases hsync : key.number = some iprotoSync ∧ val.number ≠ some wantSync
      · rw [if_neg htype, if_pos hsync]
        refine iff_of_false (by norm_num) ?_
        rintro ⟨⟨-, hwant⟩, -⟩
        exact hsync.2 (hwant hsync.1)
      · rw [if_neg htype, if_neg hsync, ih]
        rw [not_and_not_right] at htype hsync
        exact (and_iff_right ⟨htype, hsync⟩).symm

/-- A mismatch is reported for a sync id that is another one. -/
theorem mismatch_of_verdict {wantSync : ℕ} {entries : List (Item × Item)}
    (h : verdict wantSync entries = -2) :
    ∃ e ∈ entries, e.1.number = some iprotoSync ∧ e.2.number ≠ some wantSync := by
  induction entries with
  | nil =>
    rw [verdict] at h
    exact absurd h (by decide)
  | cons e entries ih =>
    obtain ⟨key, val⟩ := e
    rw [verdict] at h
    split_ifs at h with htype hsync
    · exact absurd h (by decide)
    · exact ⟨_, List.mem_cons_self, hsync⟩
    · obtain ⟨e, he, hmismatch⟩ := ih h
      exact ⟨e, List.mem_cons_of_mem _ he, hmismatch⟩

/-! ## Every header -/

/-- A header with a status and a sync id.  Its keys are numbers, and no value has a floating-point
number or an extension in it. -/
structure StatusHeader where
  header : Header
  code : ℕ
  sync : ℕ
  keyed : ∀ e ∈ header.entries, ∃ k, e.1.number = some k
  coded : ∃ e ∈ header.entries, e.1.number = some iprotoRequestType ∧ e.2.number = some code
  synced : ∃ e ∈ header.entries, e.1.number = some iprotoSync ∧ e.2.number = some sync
  plain : ∀ e ∈ header.entries, ∀ part : Item, part.Within e.2 → ¬ FloatOrExt part

theorem length_val_le {entries : List (Item × Item)} {e : Item × Item} (h : e ∈ entries) :
    e.2.bytes.length ≤ (entriesBytes entries).length := by
  rw [entriesBytes_eq]
  exact length_le_itemsBytes (List.mem_flatMap.2 ⟨e, h, by simp⟩)

theorem StatusHeader.readable (h : StatusHeader) (hlen : h.header.bytes.length < 2 ^ 32) :
    ∀ e ∈ h.header.entries, Readable e := by
  intro e he
  obtain ⟨k, hk⟩ := h.keyed e he
  have hpairs : (entriesBytes h.header.entries).length ≤ h.header.bytes.length := by
    rw [Header.bytes, Item.bytes, List.length_cons]
    cases h.header.count with
    | none => exact Nat.le_succ _
    | some w =>
      rw [mapItem, Item.payload, List.length_append]
      omega
  have hvalid := (entriesValid_iff.1 h.header.entriesValid e he).2
  refine ⟨k, hk, skipsExactly_of_plain hvalid (h.plain e he)
    (((length_val_le he).trans hpairs).trans_lt hlen), ?_⟩
  rintro (rfl | rfl)
  · obtain ⟨e', he', hk', hv⟩ := h.coded
    rw [h.header.entry_unique he he' hk hk']
    exact ⟨_, hv⟩
  · obtain ⟨e', he', hk', hv⟩ := h.synced
    rw [h.header.entry_unique he he' hk hk']
    exact ⟨_, hv⟩

theorem StatusHeader.agreeing_iff (h : StatusHeader) (wantSync : ℕ) :
    Agreeing wantSync h.header.entries ↔ h.code = iprotoOk ∧ h.sync = wantSync := by
  obtain ⟨status, hstatus, hstatusKey, hcode⟩ := h.coded
  obtain ⟨synced, hsynced, hsyncedKey, hsync⟩ := h.synced
  constructor
  · intro hagree
    have hok := (hagree status hstatus).1 hstatusKey
    have hwant := (hagree synced hsynced).2 hsyncedKey
    rw [hcode] at hok
    rw [hsync] at hwant
    exact ⟨Option.some.inj hok, Option.some.inj hwant⟩
  · rintro ⟨hok, hwant⟩ e he
    constructor
    · intro hkey
      rw [h.header.entry_unique he hstatus hkey hstatusKey, hcode, hok]
    · intro hkey
      rw [h.header.entry_unique he hsynced hkey hsyncedKey, hsync, hwant]

/-- **The verdict of `check_iproto_status`.**  It returns 0 exactly if the status is `IPROTO_OK` and
the sync id is the one of the request, and -2 only if the sync id is another one.  A frame has less
than 4 GiB. -/
theorem checkIprotoStatus_verdict (h : StatusHeader) (rest : Bytes) (wantSync : ℕ)
    (hlen : (h.header.bytes ++ rest).length < 2 ^ 32) :
    ∃ rc, checkIprotoStatus (h.header.bytes ++ rest) wantSync = some rc ∧
      (rc = 0 ↔ h.code = iprotoOk ∧ h.sync = wantSync) ∧ (rc = -2 → h.sync ≠ wantSync) := by
  have hcons : h.header.bytes ++ rest ≠ [] := by simp [Header.bytes, Item.bytes]
  rw [List.length_append] at hlen
  refine ⟨verdict wantSync h.header.entries, ?_, ?_, ?_⟩
  · rw [checkIprotoStatus, if_neg hcons, mpDecodeMap_header, Option.bind_some]
    exact statusLoop_verdict h.header.entriesValid (h.readable (by omega)) wantSync rest
  · rw [verdict_eq_zero_iff, h.agreeing_iff]
  · intro hverdict hwant
    obtain ⟨e, he, hkey, hmismatch⟩ := mismatch_of_verdict hverdict
    obtain ⟨synced, hsynced, hsyncedKey, hsync⟩ := h.synced
    rw [h.header.entry_unique he hsynced hkey hsyncedKey, hsync, hwant] at hmismatch
    exact hmismatch rfl

/-- The header Tarantool sends. -/
def StatusHeader.usual (sync : UInt64) : StatusHeader where
  header := RtpEngine.okHeader sync
  code := iprotoOk
  sync := sync.toNat
  keyed := by simp [RtpEngine.okHeader, Item.number]
  coded := by simp [RtpEngine.okHeader, Item.number, iprotoRequestType, iprotoOk]
  synced := by simp [RtpEngine.okHeader, Item.number, iprotoSync]
  plain := by
    intro e he part hpart
    obtain ⟨k, v, -, hv⟩ := RtpEngine.numeric_okHeader sync e he
    exact plain_of_number hv hpart

/-- The answer to request 7. -/
theorem checkIprotoStatus_verdict_seven :
    ∃ rc, checkIprotoStatus ((StatusHeader.usual 7).header.bytes ++ [0x80]) 7 = some rc ∧
      (rc = 0 ↔ (StatusHeader.usual 7).code = iprotoOk ∧ (StatusHeader.usual 7).sync = 7) ∧
      (rc = -2 → (StatusHeader.usual 7).sync ≠ 7) :=
  checkIprotoStatus_verdict (StatusHeader.usual 7) [0x80] 7 (by decide)

end OpenSips

end VoipBackend
