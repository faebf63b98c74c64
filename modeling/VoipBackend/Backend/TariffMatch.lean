import VoipBackend.Backend.Billing

/-!
# Which tariff a number has

`match_tariff` tries the prefixes of the destination from the longest to the shortest.  What it
finds is the entry with the longest prefix in the table, where there is one, and otherwise the
entry `default` or a built-in rate.  So an entry that is set changes the price of no destination
but those it is the longest prefix of, and, if it is the entry `default`, those without a prefix in
the table (`longest_prefix_rates`).
-/

namespace VoipBackend

open Library

/-- The prefix is one of the destination's; the empty one does not count. -/
def PrefixOf (pfx destination : LuaString) : Prop := pfx ≠ [] ∧ pfx <+: destination

/-- No entry has a prefix of the destination. -/
def Unmatched (tariffs : KeyedTable Tariff.pfx) (destination : LuaString) : Prop :=
  ∀ t ∈ tariffs.rows, ¬ PrefixOf t.pfx destination

/-- The entry has the longest prefix of the destination in the table. -/
structure LongestMatch (tariffs : KeyedTable Tariff.pfx) (destination : LuaString) (t : Tariff) :
    Prop where
  stored : t ∈ tariffs.rows
  matched : PrefixOf t.pfx destination
  longest : ∀ t' ∈ tariffs.rows, PrefixOf t'.pfx destination → t'.pfx.length ≤ t.pfx.length

/-- What a destination without a prefix in the table is rated with. -/
def defaultRating (b : Box) : Rating :=
  match b.tariffs.get (ascii "default") with
  | some t => t.rating
  | none => ⟨1 / 20, 0, ascii "Default Fallback"⟩

variable {tariffs : KeyedTable Tariff.pfx} {destination : LuaString}

/-! ## The search -/

/-- A prefix is what is left of the destination at its length. -/
theorem take_of_prefixOf {pfx : LuaString} (h : PrefixOf pfx destination) :
    destination.take pfx.length = pfx :=
  (List.prefix_iff_eq_take.1 h.2).symm

theorem prefixOf_take {n : ℕ} (hlen : n + 1 ≤ destination.length) :
    PrefixOf (destination.take (n + 1)) destination := by
  refine ⟨?_, List.take_prefix _ _⟩
  intro h
  have := congrArg List.length h
  rw [List.length_take, List.length_nil] at this
  omega

/-- The search from `len` down: the longest prefix of at most that length, if there is one. -/
theorem findPrefix_cases (tariffs : KeyedTable Tariff.pfx) {len : ℕ} (hlen : len ≤ destination.length) :
    (∃ t, findPrefix tariffs destination len = some t ∧ t ∈ tariffs.rows ∧
      PrefixOf t.pfx destination ∧
      ∀ t' ∈ tariffs.rows, PrefixOf t'.pfx destination → t'.pfx.length ≤ len →
        t'.pfx.length ≤ t.pfx.length) ∨
    (findPrefix tariffs destination len = none ∧
      ∀ t ∈ tariffs.rows, PrefixOf t.pfx destination → len < t.pfx.length) := by
  induction len with
  | zero => exact Or.inr ⟨rfl, fun t _ h => List.length_pos_iff.2 h.1⟩
  | succ n ih =>
    rw [findPrefix]
    cases hget : tariffs.get (destination.take (n + 1)) with
    | some t =>
      have hpfx : t.pfx = destination.take (n + 1) := KeyedTable.key_of_get hget
      refine Or.inl ⟨t, rfl, KeyedTable.mem_of_get hget, hpfx ▸ prefixOf_take hlen, ?_⟩
      intro t' _ _ hle
      rw [hpfx, List.length_take]
      omega
    | none =>
      -- so no entry has a prefix of this length
      have hshorter : ∀ t ∈ tariffs.rows, PrefixOf t.pfx destination → t.pfx.length ≠ n + 1 := by
        intro t ht hmatched heq
        refine KeyedTable.get_eq_none_iff.1 hget t ht ?_
        rw [← heq, take_of_prefixOf hmatched]
      rcases ih (by omega) with ⟨t, hfind, ht, hmatched, hlongest⟩ | ⟨hfind, hnone⟩
      · refine Or.inl ⟨t, hfind, ht, hmatched, fun t' ht' hmatched' hle => ?_⟩
        have := hshorter t' ht' hmatched'
        exact hlongest t' ht' hmatched' (by omega)
      · refine Or.inr ⟨hfind, fun t ht hmatched => ?_⟩
        have := hshorter t ht hmatched
        have := hnone t ht hmatched
        omega

/-- **What is found.** -/
theorem matchTariff_cases (b : Box) (destination : LuaString) :
    (∃ t, LongestMatch b.tariffs destination t ∧ matchTariff b destination = t.rating) ∨
      (Unmatched b.tariffs destination ∧ matchTariff b destination = defaultRating b) := by
  rcases findPrefix_cases b.tariffs (le_refl destination.length) with
    ⟨t, hfind, ht, hmatched, hlongest⟩ | ⟨hfind, hnone⟩
  · refine Or.inl ⟨t, ⟨ht, hmatched, fun t' ht' hmatched' => ?_⟩, ?_⟩
    · exact hlongest t' ht' hmatched' hmatched'.2.length_le
    · rw [matchTariff, hfind]
  · refine Or.inr ⟨fun t ht hmatched => ?_, ?_⟩
    · exact absurd (hnone t ht hmatched) (not_lt.2 hmatched.2.length_le)
    · rw [matchTariff, hfind]
      rfl

/-! ## Setting a tariff -/

theorem LongestMatch.unique {t t' : Tariff} (h : LongestMatch tariffs destination t)
    (h' : LongestMatch tariffs destination t') : t = t' := by
  have hlen : t.pfx.length = t'.pfx.length :=
    le_antisymm (h'.longest t h.stored h.matched) (h.longest t' h'.stored h'.matched)
  refine KeyedTable.eq_of_mem_of_key tariffs.sorted h.stored h'.stored ?_
  rw [← take_of_prefixOf h.matched, hlen, take_of_prefixOf h'.matched]

theorem LongestMatch.not_unmatched {t : Tariff} (h : LongestMatch tariffs destination t) :
    ¬ Unmatched tariffs destination := fun hnone => hnone t h.stored h.matched

theorem matchTariff_of_longestMatch {b : Box} {t : Tariff}
    (h : LongestMatch b.tariffs destination t) : matchTariff b destination = t.rating := by
  rcases matchTariff_cases b destination with ⟨t', h', heq⟩ | ⟨hnone, -⟩
  · rw [heq, h.unique h']
  · exact absurd hnone h.not_unmatched

theorem matchTariff_of_unmatched {b : Box} (h : Unmatched b.tariffs destination) :
    matchTariff b destination = defaultRating b := by
  rcases matchTariff_cases b destination with ⟨t, h', -⟩ | ⟨-, heq⟩
  · exact absurd h h'.not_unmatched
  · exact heq

/-- The entries after one is set: the new one, and the others as they were. -/
theorem mem_put_iff {t r : Tariff} :
    t ∈ (tariffs.put r).rows ↔ t = r ∨ (t ∈ tariffs.rows ∧ t.pfx ≠ r.pfx) := by
  rw [KeyedTable.mem_rows_iff, KeyedTable.get_put, KeyedTable.mem_rows_iff]
  by_cases h : t.pfx = r.pfx
  · rw [if_pos h, Option.some.injEq]
    constructor
    · exact fun heq => Or.inl heq.symm
    · rintro (heq | ⟨-, hne⟩)
      · exact heq.symm
      · exact absurd h hne
  · rw [if_neg h]
    constructor
    · exact fun hget => Or.inr ⟨hget, h⟩
    · rintro (heq | ⟨hget, -⟩)
      · exact absurd (congrArg Tariff.pfx heq) h
      · exact hget

/-- The entry that is set is not the longest prefix: what was found is found. -/
theorem LongestMatch.put {t r : Tariff} (h : LongestMatch tariffs destination t)
    (hr : PrefixOf r.pfx destination → r.pfx.length < t.pfx.length) :
    LongestMatch (tariffs.put r) destination t where
  stored := by
    refine mem_put_iff.2 (Or.inr ⟨h.stored, fun heq => ?_⟩)
    exact absurd (hr (heq ▸ h.matched)) (heq ▸ lt_irrefl _)
  matched := h.matched
  longest := by
    intro t' ht' hmatched'
    rcases mem_put_iff.1 ht' with rfl | ⟨hold, -⟩
    · exact (hr hmatched').le
    · exact h.longest t' hold hmatched'

theorem Unmatched.put {r : Tariff} (h : Unmatched tariffs destination)
    (hr : ¬ PrefixOf r.pfx destination) : Unmatched (tariffs.put r) destination := by
  intro t ht
  rcases mem_put_iff.1 ht with rfl | ⟨hold, -⟩
  · exact hr
  · exact h t hold

/-- **Which answers change** when a tariff is set. -/
theorem matchTariff_setTariff {a : SetTariffArgs} {b : Box} {destination : LuaString}
    (hchanged : matchTariff (setTariff a b) destination ≠ matchTariff b destination) :
    (PrefixOf a.pfx destination ∧
      ∀ t ∈ b.tariffs.rows, PrefixOf t.pfx destination → t.pfx.length ≤ a.pfx.length) ∨
    (a.pfx = ascii "default" ∧ Unmatched b.tariffs destination) := by
  by_contra hcon
  rw [not_or] at hcon
  obtain ⟨hlonger, hdefault⟩ := hcon
  refine hchanged ?_
  rcases matchTariff_cases b destination with ⟨t, hlongest, heq⟩ | ⟨hnone, heq⟩
  · rw [heq]
    refine matchTariff_of_longestMatch (hlongest.put fun hmatched => ?_)
    by_contra hle
    refine hlonger ⟨hmatched, fun t' ht' hmatched' => ?_⟩
    exact (hlongest.longest t' ht' hmatched').trans (not_lt.1 hle)
  · have hunmatched : ¬ PrefixOf a.tariff.pfx destination := fun hmatched =>
      hlonger ⟨hmatched, fun t ht hmatched' => absurd hmatched' (hnone t ht)⟩
    have hother : ascii "default" ≠ a.tariff.pfx := fun hd => hdefault ⟨hd.symm, hnone⟩
    rw [heq, matchTariff_of_unmatched (hnone.put hunmatched)]
    unfold defaultRating setTariff
    rw [KeyedTable.get_put, if_neg hother]

/-- **What a destination is rated with**, and which destinations another tariff is set for. -/
theorem longest_prefix_rates (b : Box) (destination : LuaString) (a : SetTariffArgs) :
    ((∃ t, LongestMatch b.tariffs destination t ∧ matchTariff b destination = t.rating) ∨
      (Unmatched b.tariffs destination ∧ matchTariff b destination = defaultRating b)) ∧
    (matchTariff (setTariff a b) destination ≠ matchTariff b destination →
      (PrefixOf a.pfx destination ∧
        ∀ t ∈ b.tariffs.rows, PrefixOf t.pfx destination → t.pfx.length ≤ a.pfx.length) ∨
      (a.pfx = ascii "default" ∧ Unmatched b.tariffs destination)) :=
  ⟨matchTariff_cases b destination, matchTariff_setTariff⟩

end VoipBackend
