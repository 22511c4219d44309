import InstallKit.Profiles.ShellConf
import InstallKit.Profiles.Slug

/-!
# Saved profiles

`save_profile` of `generic_pc_profile.py` makes a directory with the slug of a display name and
writes three files into it; `show_profile` reads one of them back.  The dispatcher
`legacy_macos_install.sh` lists the profiles and hands `--profile` to one of the modes of the
program.

* `listGenerated_saved` : the listing prints every profile's own name and requested system.
* `sourced_exactly` : what is written is read back, key by key, and nothing else is changed.
-/

namespace InstallKit

namespace Profiles

open Sources

/-! ### Dictionaries -/

namespace FieldDict

/-- `d.get(key)` -/
def get (d : FieldDict) (key : Text) : Option Text :=
  (d.items.find? fun kv => kv.1 = key).map Prod.snd

/-- The items after `d[key] = value`. -/
def setItem (items : List (Text × Text)) (key value : Text) : List (Text × Text) :=
  if key ∈ items.map Prod.fst then items.map fun kv => if kv.1 = key then (key, value) else kv
  else items ++ [(key, value)]

theorem map_fst_setItem {items : List (Text × Text)} {key value : Text} :
    (setItem items key value).map Prod.fst =
      if key ∈ items.map Prod.fst then items.map Prod.fst else items.map Prod.fst ++ [key] := by
  unfold setItem
  split
  · rw [List.map_map]
    refine List.map_congr_left fun kv _ => ?_
    by_cases hkv : kv.1 = key
    · simp [hkv]
    · simp [hkv]
  · simp

theorem mem_setItem {items : List (Text × Text)} {key value : Text} {kv : Text × Text}
    (h : kv ∈ setItem items key value) : kv ∈ items ∨ kv = (key, value) := by
  unfold setItem at h
  split at h
  · obtain ⟨kv', hm, rfl⟩ := List.mem_map.1 h
    by_cases hkv : kv'.1 = key
    · simp [hkv]
    · simp [hkv, hm]
  · rw [List.mem_append, List.mem_singleton] at h
    exact h

/-- `d[key] = value` -/
def set (d : FieldDict) (key value : Text) (hk : IsName key) (hv : '\x00' ∉ value) :
    FieldDict where
  items := setItem d.items key value
  nodup := by
    rw [map_fst_setItem]
    split
    · exact d.nodup
    · rename_i hnot
      exact d.nodup.append (List.nodup_singleton key) (by simpa using hnot)
  names kv hkv := by
    rcases mem_setItem hkv with hm | rfl
    · exact d.names kv hm
    · exact hk
  noNul kv hkv := by
    rcases mem_setItem hkv with hm | rfl
    · exact d.noNul kv hm
    · exact hv

variable {d : FieldDict} {key value x : Text}

theorem get_noNul {v : Text} (h : d.get key = some v) : '\x00' ∉ v := by
  obtain ⟨kv, hfind, rfl⟩ := Option.map_eq_some_iff.1 h
  exact d.noNul kv (List.mem_of_find?_eq_some hfind)

end FieldDict

/-! ### Saving -/

/-- The values of a JSON file. -/
inductive Json
  | null
  | bool (b : Bool)
  | num (n : ℤ)
  | str (t : Text)
  | arr (items : List Json)
  | obj (items : List (Text × Json))

/-- A value that counts as true. -/
def Json.truthy : Json → Bool
  | .null => false
  | .bool b => b
  | .num n => n ≠ 0
  | .str t => t ≠ []
  | .arr items => !items.isEmpty
  | .obj items => !items.isEmpty

/-- `value or default` -/
def Json.orElse (value : Option Json) (default : Json) : Json :=
  match value with
  | some v => if v.truthy then v else default
  | none => default

/-- The arguments of `save_profile`, and the time. -/
structure Profile where
  displayName : Text
  fields : FieldDict
  details : Text → Option Json
  warnings : List Text
  created : Text
  displayName_noNul : '\x00' ∉ displayName
  created_noNul : '\x00' ∉ created

/-- A slug has no NUL character. -/
theorem nul_not_mem_slug (name : Text) : '\x00' ∉ sanitizeSlug name := fun h => by
  rcases (sanitizeSlug_isSlug name).chars _ h with hw | hx
  · exact absurd hw (by decide)
  · exact absurd hx (by decide)

namespace Profile

variable (p : Profile)

def slug : Text := sanitizeSlug p.displayName

/-- The fields of `hardware.conf`. -/
def hardwareFields : FieldDict :=
  ((p.fields.set (txt "PROFILE_DISPLAY_NAME") p.displayName (by decide +kernel)
    p.displayName_noNul).set (txt "PROFILE_SLUG") p.slug (by decide +kernel)
    (nul_not_mem_slug _)).set (txt "PROFILE_CREATED_UTC") p.created (by decide +kernel)
    p.created_noNul

/-- The requested system, if it is recorded. -/
def requestedOs : Option Text :=
  match p.hardwareFields.get (txt "TARGET_REQUESTED_OS_PROFILE") with
  | some os => if os = [] then none else some os
  | none => none

/-- The items of `profile.conf`. -/
def profileConfItems : List (Text × Text) :=
  [(txt "PROFILE_NAME", p.displayName),
    (txt "PROFILE_SLUG", p.slug),
    (txt "PROFILE_STATUS", txt "analysis"),
    (txt "PROFILE_KIND", txt "hardware-analysis"),
    (txt "PROFILE_ARCH", (p.hardwareFields.get (txt "TARGET_ARCH")).getD (txt "unknown")),
    (txt "PROFILE_FORM_FACTOR", (p.hardwareFields.get (txt "TARGET_FORM_FACTOR")).getD (txt "PC")),
    (txt "PROFILE_CREATED_UTC", p.created)] ++
  match p.requestedOs with
  | some os => [(txt "PROFILE_REQUESTED_OS", os)]
  | none => []

/-- The contents of `profile.json`: what `update` puts in hides the details of the same name. -/
def payload : Text → Option Json := fun key =>
  if key = txt "profile_display_name" then some (.str p.displayName)
  else if key = txt "profile_slug" then some (.str p.slug)
  else if key = txt "created_utc" then some (.str p.created)
  else if key = txt "hardware_fields" then
    some (.obj (p.hardwareFields.items.map fun kv => (kv.1, .str kv.2)))
  else if key = txt "warnings" then some (.arr (p.warnings.map .str))
  else p.details key

end Profile

theorem Profile.payload_slug (p : Profile) : p.payload (txt "profile_slug") = some (.str p.slug) := by
  have hne : txt "profile_slug" ≠ txt "profile_display_name" := by decide +kernel
  rw [payload, if_neg hne, if_pos rfl]

/-- The directory of a profile. -/
structure Saved where
  hardwareConf : Text
  profileConf : Text
  profileJson : Text → Option Json

def Profile.saved (p : Profile) : Saved where
  hardwareConf := writeShellConf p.hardwareFields.items
  profileConf := writeShellConf p.profileConfItems
  profileJson := p.payload

/-- `profiles/generated`: every directory holds the profile of its name. -/
structure Store where
  dir : Text → Option Saved
  slug_eq : ∀ k s, dir k = some s → s.profileJson (txt "profile_slug") = some (.str k)

/-- `save_profile`, which refuses a directory that exists. -/
def Store.save (S : Store) (p : Profile) : Option Store :=
  match S.dir p.slug with
  | some _ => none
  | none => some
    { dir := fun k => if k = p.slug then some p.saved else S.dir k
      slug_eq := by
        intro k s hs
        split at hs
        · rename_i hk
          rw [← Option.some.inj hs, hk]
          exact p.payload_slug
        · exact S.slug_eq k s hs }

/-! ### Showing -/

/-- What `show_profile` prints. -/
structure Shown where
  displayName : Json
  slug : Json
  directory : Text
  fields : Json
  warnings : Json

/-- `show_profile`; nothing is shown when there is no such directory. -/
def showProfile (S : Store) (slug : Text) : Option Shown :=
  (S.dir (sanitizeSlug slug)).map fun s =>
    { displayName := (s.profileJson (txt "profile_display_name")).getD (.str slug)
      slug := (s.profileJson (txt "profile_slug")).getD (.str slug)
      directory := sanitizeSlug slug
      fields := Json.orElse (s.profileJson (txt "hardware_fields")) (.obj [])
      warnings := Json.orElse (s.profileJson (txt "warnings")) (.arr []) }

/-- The modes of the program. -/
inductive Mode
  | new
  | universal
  deriving DecidableEq

/-- What the dispatcher does. -/
inductive Action
  /-- There is no `--profile`. -/
  | target
  /-- The computer is analysed. -/
  | analyse (mode : Mode)
  /-- `--show` -/
  | shown (result : Option Shown)

/-- The words that the dispatcher takes for itself. -/
def universalWords : List Text := [txt "universal", txt "universal-x86", txt "generic-x86"]

/-- The part of `legacy_macos_install.sh` for `--profile`. -/
def dispatch (S : Store) (hardwareProfile : Text) : Action :=
  if hardwareProfile = [] then .target
  else if hardwareProfile = txt "new" then .analyse .new
  else if hardwareProfile ∈ universalWords then .analyse .universal
  else .shown (showProfile S hardwareProfile)

/-! ### Listing -/

/-- `dirname` of a path that does not end with a slash. -/
def dirname (path : Text) : Text := ((path.reverse.dropWhile (· ≠ '/')).drop 1).reverse

/-- `basename` of a path that does not end with a slash. -/
def basename (path : Text) : Text := (path.reverse.takeWhile (· ≠ '/')).reverse

/-- A line of the listing. -/
structure Listed where
  target : Text
  os : Text
  status : Text
  method : Text
  name : Text

/-- `${name:-default}` -/
def Vars.orDefault (σ : Vars) (name default : Text) : Text :=
  match σ name with
  | some v => if v = [] then default else v
  | none => default

/-- One turn of the loop in `list_generated_profiles`. -/
def listOne (profilesDir : Text) (σ : Vars) (dir conf : Text) : Option (Listed × Vars) := do
  let σ := σ.set (txt "file") (profilesDir ++ txt "/generated/" ++ dir ++ txt "/profile.conf")
  let σ := (σ.set (txt "PROFILE_NAME") []).set (txt "PROFILE_REQUESTED_OS") (txt "analysis")
  let σ ← run σ conf
  let slug := basename (dirname (σ.orDefault (txt "file") []))
  let σ := σ.set (txt "slug") slug
  let name := σ.orDefault (txt "PROFILE_NAME") slug
  let σ := σ.set (txt "name") name
  let requestedOs := σ.orDefault (txt "PROFILE_REQUESTED_OS") (txt "analysis")
  let σ := σ.set (txt "requested_os") requestedOs
  some (⟨listPrefix ++ slug, requestedOs, txt "analysis", txt "read-only", name⟩, σ)

/-- `list_generated_profiles` over the directories and their `profile.conf`. -/
def listGenerated (profilesDir : Text) : Vars → List (Text × Text) → Option (List Listed)
  | _, [] => some []
  | σ, (dir, conf) :: rest => do
    let (row, σ) ← listOne profilesDir σ dir conf
    let rows ← listGenerated profilesDir σ rest
    some (row :: rows)

/-- The line of a profile: its own name and requested system. -/
def Profile.listed (p : Profile) : Listed where
  target := listPrefix ++ p.slug
  os := p.requestedOs.getD (txt "analysis")
  status := txt "analysis"
  method := txt "read-only"
  name := if p.displayName = [] then p.slug else p.displayName

/-! ### The listing prints what was saved -/

/-- The keys of `profile.conf`; the last one is not always there. -/
def confKeys : List Text :=
  [txt "PROFILE_NAME", txt "PROFILE_SLUG", txt "PROFILE_STATUS", txt "PROFILE_KIND",
    txt "PROFILE_ARCH", txt "PROFILE_FORM_FACTOR", txt "PROFILE_CREATED_UTC",
    txt "PROFILE_REQUESTED_OS"]

theorem Profile.map_fst_profileConfItems (p : Profile) :
    (p.profileConfItems.map Prod.fst).Sublist confKeys := by
  unfold Profile.profileConfItems
  cases p.requestedOs with
  | none => exact (List.prefix_append _ [txt "PROFILE_REQUESTED_OS"]).sublist
  | some os => exact List.Sublist.refl _

theorem Profile.requestedOs_noNul {p : Profile} {os : Text} (h : p.requestedOs = some os) :
    '\x00' ∉ os := by
  unfold Profile.requestedOs at h
  split at h
  · rename_i os' hget
    split at h
    · cases h
    · rw [← Option.some.inj h]
      exact p.hardwareFields.get_noNul hget
  · cases h

/-- The dictionary of `profile.conf`. -/
def Profile.profileConf (p : Profile) : FieldDict where
  items := p.profileConfItems
  nodup := p.map_fst_profileConfItems.nodup (by decide +kernel)
  names kv hkv := by
    have hall : ∀ k ∈ confKeys, IsName k := by decide +kernel
    exact hall _ (p.map_fst_profileConfItems.subset (List.mem_map_of_mem hkv))
  noNul := by
    have hdefault : ∀ key default, '\x00' ∉ default →
        '\x00' ∉ (p.hardwareFields.get key).getD default := by
      intro key default hd
      cases hget : p.hardwareFields.get key with
      | none => exact hd
      | some v => exact p.hardwareFields.get_noNul hget
    have hos : ∀ kv ∈ (match p.requestedOs with
        | some os => [(txt "PROFILE_REQUESTED_OS", os)]
        | none => []), '\x00' ∉ kv.2 := by
      cases hr : p.requestedOs with
      | none => simp
      | some os => simpa using p.requestedOs_noNul hr
    refine List.forall_mem_append.2 ⟨?_, hos⟩
    simp only [List.forall_mem_cons]
    exact ⟨p.displayName_noNul, nul_not_mem_slug _, by decide +kernel, by decide +kernel,
      hdefault _ _ (by decide +kernel), hdefault _ _ (by decide +kernel), p.created_noNul,
      fun _ h => absurd h List.not_mem_nil⟩

theorem Profile.assignable_profileConf (p : Profile) : p.profileConf.Assignable := by
  have hall : ∀ k ∈ confKeys, kindOf k = .ordinary := by decide +kernel
  exact fun kv hkv => hall _ (p.map_fst_profileConfItems.subset (List.mem_map_of_mem hkv))

theorem basename_dirname {a s b : Text} (hs : '/' ∉ s) (hb : '/' ∉ b) :
    basename (dirname (a ++ '/' :: s ++ '/' :: b)) = s := by
  have hnot : ∀ t : Text, '/' ∉ t → ∀ c ∈ t.reverse, decide (c ≠ '/') = true := by
    intro t ht c hc
    simpa using fun hx : c = '/' => ht (hx ▸ List.mem_reverse.1 hc)
  have hrev : (a ++ '/' :: s ++ '/' :: b).reverse =
      b.reverse ++ '/' :: (s.reverse ++ '/' :: a.reverse) := by simp
  have hdir : dirname (a ++ '/' :: s ++ '/' :: b) = a ++ '/' :: s := by
    rw [dirname, hrev, List.dropWhile_append_of_pos (hnot b hb), List.dropWhile_cons,
      if_neg (by simp)]
    simp
  rw [hdir, basename, List.reverse_append, List.reverse_cons, List.append_assoc,
    List.takeWhile_append_of_pos (hnot s hs)]
  simp

theorem slash_not_mem_slug (p : Profile) : '/' ∉ p.slug := fun h => by
  rcases (sanitizeSlug_isSlug p.displayName).chars _ h with hw | hx
  · exact absurd hw (by decide)
  · exact absurd hx (by decide)

/-- The path of the loop leads back to the slug. -/
theorem basename_dirname_profileConf (profilesDir : Text) (p : Profile) :
    basename (dirname (profilesDir ++ txt "/generated/" ++ p.slug ++ txt "/profile.conf")) =
      p.slug := by
  have hpath : profilesDir ++ txt "/generated/" ++ p.slug ++ txt "/profile.conf" =
      (profilesDir ++ txt "/generated") ++ '/' :: p.slug ++ '/' :: txt "profile.conf" := by
    have h₁ : txt "/generated/" = txt "/generated" ++ ['/'] := by decide +kernel
    have h₂ : txt "/profile.conf" = '/' :: txt "profile.conf" := by decide +kernel
    rw [h₁, h₂]
    simp
  rw [hpath]
  exact basename_dirname (slash_not_mem_slug p) (by decide +kernel)

/-- What a variable is after a profile has been sourced. -/
theorem setAll_profileConf (σ : Vars) (p : Profile) :
    (∀ x, x ∉ confKeys → σ.setAll p.profileConfItems x = σ x) ∧
      σ.setAll p.profileConfItems (txt "PROFILE_NAME") = some p.displayName ∧
      σ.setAll p.profileConfItems (txt "PROFILE_REQUESTED_OS") =
        (p.requestedOs.map some).getD (σ (txt "PROFILE_REQUESTED_OS")) := by
  have hnodup : (p.profileConfItems.map Prod.fst).Nodup := p.profileConf.nodup
  refine ⟨fun x hx => ?_, ?_, ?_⟩
  · exact setAll_of_not_mem fun hm => hx (p.map_fst_profileConfItems.subset hm)
  · exact setAll_of_mem hnodup (by simp [Profile.profileConfItems])
  · cases hr : p.requestedOs with
    | none =>
      have hkey : txt "PROFILE_REQUESTED_OS" ∉ p.profileConfItems.map Prod.fst := by
        simp only [Profile.profileConfItems, hr, List.append_nil, List.map_cons, List.map_nil]
        decide +kernel
      exact setAll_of_not_mem hkey
    | some os => exact setAll_of_mem hnodup (by simp [Profile.profileConfItems, hr])

theorem Profile.requestedOs_ne_nil {p : Profile} {os : Text} (h : p.requestedOs = some os) :
    os ≠ [] := by
  unfold Profile.requestedOs at h
  split at h
  · split at h
    · cases h
    · rename_i hne
      rwa [← Option.some.inj h]
  · cases h

/-- **One turn of the loop**: what is printed does not depend on the variables before it. -/
theorem listOne_saved (profilesDir : Text) (σ : Vars) (p : Profile) :
    ∃ σ', listOne profilesDir σ p.slug p.saved.profileConf = some (p.listed, σ') := by
  obtain ⟨σ₀, hσ₀⟩ : ∃ σ₀, ((σ.set (txt "file") (profilesDir ++ txt "/generated/" ++ p.slug ++
      txt "/profile.conf")).set (txt "PROFILE_NAME") []).set (txt "PROFILE_REQUESTED_OS")
      (txt "analysis") = σ₀ := ⟨_, rfl⟩
  have hrun : run σ₀ p.saved.profileConf = some (σ₀.setAll p.profileConfItems) :=
    run_eq_setAll p.assignable_profileConf σ₀
  obtain ⟨hother, hname, hos⟩ := setAll_profileConf σ₀ p
  generalize σ₀.setAll p.profileConfItems = σ₁ at hrun hother hname hos
  -- the variables that are read afterwards
  have hfile : σ₁ (txt "file") =
      some (profilesDir ++ txt "/generated/" ++ p.slug ++ txt "/profile.conf") := by
    rw [hother _ (by decide +kernel), ← hσ₀, Vars.set_of_ne _ (by decide +kernel),
      Vars.set_of_ne _ (by decide +kernel), Vars.set_self]
  have hslug : basename (dirname (σ₁.orDefault (txt "file") [])) = p.slug := by
    have hne : profilesDir ++ txt "/generated/" ++ p.slug ++ txt "/profile.conf" ≠ [] := fun hnil =>
      absurd (List.append_eq_nil_iff.1 hnil).2 (by decide +kernel)
    simp only [Vars.orDefault, hfile, if_neg hne]
    exact basename_dirname_profileConf profilesDir p
  have hname₂ : (σ₁.set (txt "slug") p.slug).orDefault (txt "PROFILE_NAME") p.slug =
      p.listed.name := by
    simp only [Vars.orDefault, Vars.set_of_ne σ₁ (by decide +kernel : txt "PROFILE_NAME" ≠ txt "slug"),
      hname, Profile.listed]
  have hos₃ : ((σ₁.set (txt "slug") p.slug).set (txt "name") p.listed.name).orDefault
      (txt "PROFILE_REQUESTED_OS") (txt "analysis") = p.listed.os := by
    have hread : ((σ₁.set (txt "slug") p.slug).set (txt "name") p.listed.name)
        (txt "PROFILE_REQUESTED_OS") = some p.listed.os := by
      rw [Vars.set_of_ne _ (by decide +kernel), Vars.set_of_ne _ (by decide +kernel), hos, ← hσ₀,
        Vars.set_self, Profile.listed]
      cases p.requestedOs <;> rfl
    have hne : p.listed.os ≠ [] := by
      cases hr : p.requestedOs with
      | none => simp only [Profile.listed, hr]; decide +kernel
      | some os =>
        simp only [Profile.listed, hr, Option.getD_some]
        exact p.requestedOs_ne_nil hr
    simp only [Vars.orDefault, hread, if_neg hne]
  refine ⟨((σ₁.set (txt "slug") p.slug).set (txt "name") p.listed.name).set (txt "requested_os")
    p.listed.os, ?_⟩
  simp only [listOne, hσ₀, hrun, bind, Option.bind_some, hslug, hname₂, hos₃]
  rfl

/-- **The listing** of saved profiles. -/
theorem listGenerated_saved (profilesDir : Text) (σ : Vars) (ps : List Profile) :
    listGenerated profilesDir σ (ps.map fun p => (p.slug, p.saved.profileConf)) =
      some (ps.map Profile.listed) := by
  induction ps generalizing σ with
  | nil => rfl
  | cons p ps ih =>
    obtain ⟨σ', h⟩ := listOne_saved profilesDir σ p
    simp only [List.map_cons, listGenerated, h, bind, Option.bind_some, ih]

/-! ### What is written is read back -/

/-- **Round trip**: sourcing the file of a dictionary whose keys `bash` lets be assigned gives every
key its value and changes nothing else; and the listing prints the names and systems that were
saved, whatever was sourced before. -/
theorem sourced_exactly :
    (∀ (d : FieldDict) (σ : Vars), d.Assignable →
      ∃ σ', run σ (writeShellConf d.items) = some σ' ∧ (∀ kv ∈ d.items, σ' kv.1 = some kv.2) ∧
        ∀ x, x ∉ d.items.map Prod.fst → σ' x = σ x) ∧
      ∀ (profilesDir : Text) (σ : Vars) (ps : List Profile),
        listGenerated profilesDir σ (ps.map fun p => (p.slug, p.saved.profileConf)) =
          some (ps.map Profile.listed) := by
  refine ⟨fun d σ hd => ⟨σ.setAll d.items, run_eq_setAll hd σ, fun kv hkv => ?_, fun x hx => ?_⟩,
    listGenerated_saved⟩
  · exact setAll_of_mem d.nodup hkv
  · exact setAll_of_not_mem hx

/-- A value with everything in it that means something to a shell. -/
def awkwardFields : FieldDict where
  items := [(txt "TARGET_GPU", txt "it's a \"$HOME\" \x60id\x60; ~ \\ #1\n")]
  nodup := by decide +kernel
  names := by decide +kernel
  noNul := by decide +kernel

theorem sourced_exactly_awkward :
    ∃ σ' : Vars, run (fun _ => none) (writeShellConf awkwardFields.items) = some σ' ∧
      (∀ kv ∈ awkwardFields.items, σ' kv.1 = some kv.2) ∧
        ∀ x, x ∉ awkwardFields.items.map Prod.fst → σ' x = none :=
  sourced_exactly.1 awkwardFields _ (by decide +kernel)

/-- A key that `bash` keeps for itself. -/
def uidFields : FieldDict where
  items := [(txt "UID", txt "500")]
  nodup := by decide +kernel
  names := by decide +kernel
  noNul := by decide +kernel

/-- `UID` is a name, but its file is an error. -/
theorem uid_not_assigned :
    ¬ ∀ (d : FieldDict) (σ : Vars), ∃ σ', run σ (writeShellConf d.items) = some σ' ∧
      ∀ kv ∈ d.items, σ' kv.1 = some kv.2 := by
  intro h
  obtain ⟨σ', hσ', -⟩ := h uidFields fun _ => none
  have hnone : run (fun _ => none) (writeShellConf uidFields.items) = none :=
    run_of_readOnly ⟨_, List.mem_singleton_self _, by decide +kernel⟩ _
  rw [hnone] at hσ'
  cases hσ'

end Profiles

end InstallKit
