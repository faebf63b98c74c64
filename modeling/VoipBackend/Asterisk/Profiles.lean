import VoipBackend.Asterisk.Dialplan
import VoipBackend.Lib.Registry
import VoipBackend.Lib.Scanf

/-!
# The profiles of the Asterisk module

`load_config` of `res_tarantool.c` makes a profile of every category of `tarantool.conf` but
`[general]` that `find_profile` does not find yet, at the first load and at every reload.  A profile
that is there is never changed, so that the settings of a name are those of the first category that
had it (`findProfile_loaded`).  A name is cut to what the profile has room for: a longer category is
never found, and gets another profile whenever the file is read again (`reloads`).

A reload asks `ast_config_load` to tell whether the file has changed, and takes the answer that it
has not for a configuration: such a reload crashes, and these results are about those that do not.
-/

namespace VoipBackend

open Library

namespace Asterisk

/-! ## The configuration -/

/-- `strcasecmp(a, b) == 0`. -/
def strcaseEq (a b : Bytes) : Bool := a.map CString.tolower = b.map CString.tolower

/-- A category of the configuration. -/
structure Category where
  name : Bytes
  vars : List Variable
  string : 0 ∉ name

/-- Whether there is memory for the profile of a category, and for its sockets. -/
structure Memory where
  profile : Bool
  sockets : Bool

/-- What `ast_config_load` returns; `unchanged` only at a reload. -/
inductive ConfigStatus where
  | missing
  | invalid
  | unchanged
  | loaded (cats : List (Category × Memory))

/-- The settings of a category, and what they are if it does not have them. -/
structure Settings where
  host : Bytes := ascii "127.0.0.1"
  port : ℤ := 3301
  user : Bytes := []
  secret : Bytes := []
  poolSz : ℤ := 4
  timeout : ℤ := 500

/-- A variable of a category is read. -/
def Settings.read (c : Settings) (var : Variable) : Settings :=
  if strcaseEq var.name (ascii "host") then { c with host := var.value }
  else if strcaseEq var.name (ascii "port") then { c with port := CString.atoi var.value }
  else if strcaseEq var.name (ascii "user") then { c with user := var.value }
  else if strcaseEq var.name (ascii "secret") || strcaseEq var.name (ascii "password") then
    { c with secret := var.value }
  else if strcaseEq var.name (ascii "pool_size") then { c with poolSz := CString.atoi var.value }
  else if strcaseEq var.name (ascii "timeout_ms") then { c with timeout := CString.atoi var.value }
  else c

/-! ## The profiles -/

/-- `struct ast_tarantool_profile`, without its sockets and locks. -/
structure Profile where
  name : Bytes
  host : Bytes
  port : ℤ
  user : Bytes
  secret : Bytes
  poolSize : ℤ
  timeoutMs : ℤ
  deriving DecidableEq

/-- The profile of a category. -/
def Category.profile (cat : Category) : Profile :=
  let c := cat.vars.foldl Settings.read {}
  { name := astCopyString cat.name 64
    host := astCopyString c.host 128
    port := c.port
    user := astCopyString c.user 64
    secret := astCopyString c.secret 64
    poolSize := if 0 < c.poolSz then c.poolSz else 4
    timeoutMs := if 0 < c.timeout then c.timeout else 500 }

/-- What `find_profile` looks for: a profile with this name, or any. -/
def Profile.answers (name : Option Bytes) (cur : Profile) : Bool :=
  match name with
  | none => true
  | some name => name.isEmpty || strcaseEq cur.name name

/-- `find_profile`. -/
def findProfile (profiles : List Profile) (name : Option Bytes) : Option Profile :=
  profiles.find? (Profile.answers name)

/-- One round of the loop of `load_config`; the sockets are set up even if there is no memory for
them. -/
def addCategory (profiles : List Profile) (c : Category × Memory) : Option (List Profile) :=
  if strcaseEq c.1.name (ascii "general") then some profiles
  else
    match findProfile profiles (some c.1.name) with
    | some _ => some profiles
    | none =>
        if c.2.profile = false then some profiles
        else if c.2.sockets = false then none
        else some (profiles ++ [c.1.profile])

/-- `load_config`.  The value for an unchanged file is taken for a configuration, and browsing it
crashes. -/
def loadConfig (profiles : List Profile) : ConfigStatus → Option (List Profile)
  | .missing => some profiles
  | .invalid => some profiles
  | .unchanged => none
  | .loaded cats => cats.foldlM addCategory profiles

/-! ## What a load adds -/

/-- The categories of a file that get a profile unless there is one. -/
def registered (cats : List (Category × Memory)) : List Category :=
  (cats.filter fun c => !strcaseEq c.1.name (ascii "general") && c.2.profile).map Prod.fst

/-- Those of what `ast_config_load` returns. -/
def ConfigStatus.categories : ConfigStatus → List Category
  | .loaded cats => registered cats
  | _ => []

/-- The profile is found for the category. -/
def Category.found (cat : Category) (p : Profile) : Bool := p.answers (some cat.name)

/-- The name does not fit into a profile. -/
def Category.long (cat : Category) : Bool := decide (64 ≤ cat.name.length)

/-- The profiles after these categories. -/
def withCategories (profiles : List Profile) (cats : List Category) : List Profile :=
  Registry.addAll Category.found Category.profile profiles cats

theorem length_of_strcaseEq {a b : Bytes} (h : strcaseEq a b = true) : a.length = b.length := by
  simpa using congrArg List.length (of_decide_eq_true h)

theorem strcaseEq_trans {a b c : Bytes} (hab : strcaseEq a b = true) (hbc : strcaseEq b c = true) :
    strcaseEq a c = true :=
  decide_eq_true ((of_decide_eq_true hab).trans (of_decide_eq_true hbc))

theorem name_profile (cat : Category) : cat.profile.name = cat.name.take 63 := by
  show (CString.ofBuffer cat.name).take 63 = _
  rw [CString.ofBuffer_eq_self cat.string]

theorem length_name_profile (cat : Category) : cat.profile.name.length ≤ 63 := by
  rw [name_profile]
  exact List.length_take_le 63 cat.name

/-- A long category is not found. -/
theorem found_of_long {cat other : Category} (h : cat.long = true) :
    cat.found other.profile = false := by
  have hlong : 64 ≤ cat.name.length := of_decide_eq_true h
  have hne : cat.name.isEmpty = false := by
    rw [List.isEmpty_eq_false_iff]
    intro hnil
    rw [hnil] at hlong
    cases hlong
  have hother : ¬ strcaseEq other.profile.name cat.name = true := by
    intro hsame
    have hlen := length_of_strcaseEq hsame
    have hcut := length_name_profile other
    omega
  simp [Category.found, Profile.answers, hne, hother]

/-- Another category finds its own profile. -/
theorem found_of_not_long {cat : Category} (h : cat.long = false) :
    cat.found cat.profile = true := by
  have hshort : ¬ 64 ≤ cat.name.length := of_decide_eq_false h
  have hname : cat.profile.name = cat.name := by
    rw [name_profile, List.take_of_length_le (by omega)]
  have hsame : strcaseEq cat.name cat.name = true := decide_eq_true rfl
  simp [Category.found, Profile.answers, hname, hsame]

/-- Whoever looks the profile of a category up finds the one that is found for that category. -/
theorem answers_of_found {name : Option Bytes} {cat other : Category}
    (hfound : cat.found other.profile = true) (h : cat.profile.answers name = true) :
    other.profile.answers name = true := by
  cases name with
  | none => rfl
  | some name =>
    simp only [Category.found, Profile.answers, Bool.or_eq_true, List.isEmpty_iff] at hfound h ⊢
    rcases h with hnil | hname
    · exact Or.inl hnil
    rcases hfound with hnil | hfound
    · have hempty : cat.profile.name = [] := by rw [name_profile, hnil, List.take_nil]
      have hlen := length_of_strcaseEq hname
      rw [hempty] at hlen
      exact Or.inl (List.eq_nil_of_length_eq_zero hlen.symm)
    · have hlen := length_of_strcaseEq hfound
      have hcut := length_name_profile other
      have hwhole : cat.profile.name = cat.name := by
        rw [name_profile, List.take_of_length_le (by omega)]
      rw [hwhole] at hname
      exact Or.inr (strcaseEq_trans hfound hname)

/-! ## Loads -/

/-- **One category**: a load that goes on has added it, unless it is not to get a profile. -/
theorem addCategory_eq_some {profiles profiles' : List Profile} {c : Category × Memory}
    (h : addCategory profiles c = some profiles') :
    profiles' = withCategories profiles (registered [c]) := by
  unfold addCategory at h
  by_cases hgeneral : strcaseEq c.1.name (ascii "general") = true
  · rw [if_pos hgeneral] at h
    rw [registered, List.filter_singleton, hgeneral]
    exact (Option.some.inj h).symm
  rw [if_neg hgeneral] at h
  have hname : (!strcaseEq c.1.name (ascii "general")) = true := by simpa using hgeneral
  rw [registered, List.filter_singleton, hname, Bool.true_and]
  cases hfind : findProfile profiles (some c.1.name) with
  | some p =>
    rw [hfind] at h
    have hfound : profiles.any c.1.found = true :=
      List.any_eq_true.2 ⟨p, List.mem_of_find?_eq_some hfind, List.find?_some hfind⟩
    have hkept : withCategories profiles [c.1] = profiles := if_pos hfound
    cases c.2.profile with
    | true => exact (Option.some.inj h).symm.trans hkept.symm
    | false => exact (Option.some.inj h).symm
  | none =>
    rw [hfind] at h
    have hnone : ¬ profiles.any c.1.found = true := by
      intro hany
      obtain ⟨p, hp, hfound⟩ := List.any_eq_true.1 hany
      exact List.find?_eq_none.1 hfind p hp hfound
    have hadded : withCategories profiles [c.1] = profiles ++ [c.1.profile] := if_neg hnone
    simp only at h
    cases hmemory : c.2.profile with
    | true =>
      rw [if_neg (by simp [hmemory])] at h
      split_ifs at h
      exact (Option.some.inj h).symm.trans hadded.symm
    | false =>
      rw [if_pos hmemory] at h
      exact (Option.some.inj h).symm

/-- It goes on if there is memory for the sockets. -/
theorem addCategory_sockets (profiles : List Profile) {c : Category × Memory}
    (h : c.2.sockets = true) :
    addCategory profiles c = some (withCategories profiles (registered [c])) := by
  have hgoes : ∃ profiles', addCategory profiles c = some profiles' := by
    unfold addCategory
    by_cases hgeneral : strcaseEq c.1.name (ascii "general") = true
    · exact ⟨_, if_pos hgeneral⟩
    rw [if_neg hgeneral]
    cases findProfile profiles (some c.1.name) with
    | some p => exact ⟨_, rfl⟩
    | none =>
      simp only [h]
      by_cases hmemory : c.2.profile = false
      · exact ⟨_, if_pos hmemory⟩
      · rw [if_neg hmemory]
        exact ⟨_, rfl⟩
  obtain ⟨profiles', heq⟩ := hgoes
  rw [heq, addCategory_eq_some heq]

theorem registered_cons (c : Category × Memory) (cats : List (Category × Memory)) :
    registered (c :: cats) = registered [c] ++ registered cats := by
  rw [registered, registered, registered, ← List.map_append, ← List.filter_append]
  rfl

theorem withCategories_append (profiles : List Profile) (cats others : List Category) :
    withCategories profiles (cats ++ others) = withCategories (withCategories profiles cats) others :=
  Registry.addAll_append profiles cats others

/-- **One load** adds the categories of the file. -/
theorem loadConfig_eq_some {profiles profiles' : List Profile} {file : ConfigStatus}
    (h : loadConfig profiles file = some profiles') :
    profiles' = withCategories profiles file.categories := by
  cases file with
  | missing => exact (Option.some.inj h).symm
  | invalid => exact (Option.some.inj h).symm
  | unchanged => cases h
  | loaded cats =>
    change cats.foldlM addCategory profiles = some profiles' at h
    change profiles' = withCategories profiles (registered cats)
    induction cats generalizing profiles with
    | nil => exact (Option.some.inj h).symm
    | cons c cats ih =>
      rw [List.foldlM_cons, Option.bind_eq_bind, Option.bind_eq_some_iff] at h
      obtain ⟨between, hc, h⟩ := h
      rw [ih h, addCategory_eq_some hc, registered_cons c cats, withCategories_append]

/-- So do all loads. -/
theorem loads_eq_some {files : List ConfigStatus} {profiles profiles' : List Profile}
    (h : files.foldlM loadConfig profiles = some profiles') :
    profiles' = withCategories profiles (files.flatMap ConfigStatus.categories) := by
  induction files generalizing profiles with
  | nil => exact (Option.some.inj h).symm
  | cons file files ih =>
    rw [List.foldlM_cons, Option.bind_eq_bind, Option.bind_eq_some_iff] at h
    obtain ⟨between, hfile, h⟩ := h
    rw [ih h, loadConfig_eq_some hfile, List.flatMap_cons, withCategories_append]

/-- A file is loaded if there is memory for all sockets. -/
theorem loadConfig_sockets {cats : List (Category × Memory)} (h : ∀ c ∈ cats, c.2.sockets = true)
    (profiles : List Profile) :
    loadConfig profiles (.loaded cats) = some (withCategories profiles (registered cats)) := by
  show cats.foldlM addCategory profiles = _
  induction cats generalizing profiles with
  | nil => rfl
  | cons c cats ih =>
    obtain ⟨hc, hcats⟩ := List.forall_mem_cons.1 h
    rw [List.foldlM_cons, addCategory_sockets profiles hc, registered_cons c cats,
      withCategories_append, ← ih hcats]
    rfl

/-- And again. -/
theorem reloads_sockets {cats : List (Category × Memory)} (h : ∀ c ∈ cats, c.2.sockets = true)
    (k : ℕ) (profiles : List Profile) :
    (List.replicate k (ConfigStatus.loaded cats)).foldlM loadConfig profiles =
      some (withCategories profiles (List.replicate k (registered cats)).flatten) := by
  induction k generalizing profiles with
  | zero => rfl
  | succ k ih =>
    rw [List.replicate_succ, List.foldlM_cons, loadConfig_sockets h, List.replicate_succ,
      List.flatten_cons, withCategories_append, ← ih]
    rfl

/-! ## What is found -/

/-- What a profile has room for. -/
structure Profile.Sound (p : Profile) : Prop where
  name : p.name.length < 64
  host : p.host.length < 128
  user : p.user.length < 64
  secret : p.secret.length < 64
  poolSize : 0 < p.poolSize
  timeoutMs : 0 < p.timeoutMs

theorem length_astCopyString (src : Bytes) {size : ℕ} (hsize : 0 < size) :
    (astCopyString src size).length < size := by
  have hlen : (astCopyString src size).length ≤ size - 1 := List.length_take_le _ _
  omega

theorem sound_profile (cat : Category) : cat.profile.Sound where
  name := length_astCopyString _ (by norm_num)
  host := length_astCopyString _ (by norm_num)
  user := length_astCopyString _ (by norm_num)
  secret := length_astCopyString _ (by norm_num)
  poolSize := by
    unfold Category.profile
    simp only
    split_ifs with hpos
    · exact hpos
    · norm_num
  timeoutMs := by
    unfold Category.profile
    simp only
    split_ifs with hpos
    · exact hpos
    · norm_num

/-- **Whose settings does a name have?**  After any loads and reloads that do not crash, those of the
first category with that name, cut to 63 bytes, that there was memory for; without a name, those of
the first category at all.  `[general]` does not count.  The strings of every profile fit, and its
pool and its timeout are positive. -/
theorem findProfile_loaded {files : List ConfigStatus} {profiles : List Profile}
    (h : files.foldlM loadConfig [] = some profiles) :
    (∀ name, findProfile profiles name =
      ((files.flatMap ConfigStatus.categories).map Category.profile).find?
        (Profile.answers name)) ∧
      ∀ p ∈ profiles, p.Sound := by
  rw [loads_eq_some h]
  constructor
  · intro name
    apply Registry.find?_addAll
    intro cat other hfound hanswers
    exact answers_of_found hfound hanswers
  · intro p hp
    obtain ⟨cat, rfl⟩ := Registry.mem_addAll (by simp) _ p hp
    exact sound_profile cat

theorem string_tnt1 : 0 ∉ ascii "tnt1" := by decide

/-- A category with this host. -/
def hostCategory (host : Bytes) : Category := ⟨ascii "tnt1", [⟨ascii "host", host⟩], string_tnt1⟩

/-- The host of a reload does not count. -/
theorem findProfile_loaded_hosts :
    findProfile [(hostCategory (ascii "10.0.0.1")).profile] (some (ascii "TNT1")) =
      some (hostCategory (ascii "10.0.0.1")).profile := by
  have hload : [ConfigStatus.loaded [(hostCategory (ascii "10.0.0.1"), ⟨true, true⟩)],
      .loaded [(hostCategory (ascii "10.0.0.2"), ⟨true, true⟩)]].foldlM loadConfig [] =
        some [(hostCategory (ascii "10.0.0.1")).profile] := rfl
  rw [(findProfile_loaded hload).1]
  rfl

/-- **What does a reload add?**  Reading the categories of a file again, so many times, with memory for
the same profiles and for all sockets, adds one profile each time for every category whose name is
longer than 63 bytes, and nothing else; and no profile is ever found under such a name.  That a
reload reads them means that the file was written in between. -/
theorem reloads {files : List ConfigStatus} {cats : List (Category × Memory)}
    {profiles : List Profile}
    (h : (files ++ [ConfigStatus.loaded cats]).foldlM loadConfig [] = some profiles)
    (hmemory : ∀ c ∈ cats, c.2.sockets = true) (k : ℕ) :
    ∃ profiles', (List.replicate k (ConfigStatus.loaded cats)).foldlM loadConfig profiles =
        some profiles' ∧
      profiles' = profiles ++
        ((List.replicate k (registered cats)).flatten.filter Category.long).map
          Category.profile ∧
      ∀ cat : Category, 64 ≤ cat.name.length → findProfile profiles' (some cat.name) = none := by
  refine ⟨_, reloads_sockets hmemory k profiles, ?_, ?_⟩
  · rw [loads_eq_some h, List.flatMap_append, List.flatMap_singleton, withCategories_append]
    apply Registry.addAll_again
    · intro cat other hlong
      exact found_of_long hlong
    · intro cat hshort
      exact found_of_not_long hshort
    · apply Registry.mem_addAll
      simp
  · intro cat hlong
    apply List.find?_eq_none.2
    intro p hp
    rw [loads_eq_some h, ← withCategories_append] at hp
    obtain ⟨other, rfl⟩ := Registry.mem_addAll (by simp) _ p hp
    have hlost : cat.found other.profile = false := found_of_long (decide_eq_true hlong)
    rw [Category.found] at hlost
    rw [hlost]
    exact Bool.false_ne_true

theorem string_long : 0 ∉ List.replicate 64 (0x61 : UInt8) := by decide

/-- A category with a name that is a byte too long. -/
def longCategory : Category := ⟨List.replicate 64 0x61, [], string_long⟩

/-- Three profiles after two reloads. -/
theorem reloads_longCategory :
    ∃ profiles, (List.replicate 2 (ConfigStatus.loaded [(longCategory, ⟨true, true⟩)])).foldlM
        loadConfig [longCategory.profile] = some profiles ∧ profiles.length = 3 := by
  have hload : ([] ++ [ConfigStatus.loaded [(longCategory, ⟨true, true⟩)]]).foldlM loadConfig [] =
      some [longCategory.profile] := rfl
  obtain ⟨profiles, hprofiles, hadded, -⟩ := reloads hload (by simp) 2
  refine ⟨profiles, hprofiles, ?_⟩
  rw [hadded]
  rfl

end Asterisk

end VoipBackend
