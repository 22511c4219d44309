import InstallKit.Profiles.Saved

/-!
# Finding a saved profile again

A profile goes through four mappings of names: `sanitize_slug` makes its directory, the dispatcher
compares the argument of `--profile` with its own words, the listing puts `generated/` in front of
the directory, and `show_profile` sanitizes its argument once more.

* `shows_slug_iff` : by its slug a profile is shown unless the slug is a word of the dispatcher.
* `shows_listed_iff` : by the identifier of the listing it is shown for one slug only.
* `reachable_iff` : so only a profile with this slug is found again in both ways.
-/

namespace InstallKit

namespace Profiles

open Sources

/-- The words of the dispatcher. -/
def reservedWords : List Text := txt "new" :: universalWords

/-- `--profile arg` shows the profile: its display name, its slug and its fields. -/
def Shows (S : Store) (p : Profile) (arg : Text) : Prop :=
  ∃ s, dispatch S arg = .shown (some s) ∧ s.displayName = .str p.displayName ∧
    s.slug = .str p.slug ∧ s.fields = .obj (p.hardwareFields.items.map fun kv => (kv.1, .str kv.2))

/-- The profile is shown by its slug and by the identifier of the listing, and is not shadowed. -/
def Reachable (S : Store) (p : Profile) : Prop :=
  Shows S p p.slug ∧ Shows S p p.listed.target ∧ p.slug ∉ reservedWords

variable {S S' : Store} {p : Profile}

theorem isSlug_slug (p : Profile) : IsSlug p.slug := sanitizeSlug_isSlug p.displayName

/-- The directory of a profile that was saved. -/
theorem dir_of_save (h : S.save p = some S') : S'.dir p.slug = some p.saved := by
  unfold Store.save at h
  split at h
  · cases h
  · have hdir : S'.dir = fun k => if k = p.slug then some p.saved else S.dir k := by
      rw [← Option.some.inj h]
    simp only [hdir, if_true]

theorem dispatch_of_not_reserved {arg : Text} (hne : arg ≠ []) (hr : arg ∉ reservedWords) :
    dispatch S arg = .shown (showProfile S arg) := by
  rw [reservedWords, List.mem_cons, not_or] at hr
  rw [dispatch, if_neg hne, if_neg hr.1, if_neg hr.2]

theorem dispatch_of_reserved {arg : Text} {r : Option Shown} (hr : arg ∈ reservedWords) :
    dispatch S arg ≠ .shown r := by
  have hne : ∀ w ∈ reservedWords, w ≠ [] := by decide +kernel
  rw [dispatch, if_neg (hne arg hr)]
  split
  · exact fun h => by cases h
  · rename_i hnew
    rw [if_pos ((List.mem_cons.1 hr).resolve_left hnew)]
    exact fun h => by cases h

/-- The fields of a profile are never empty. -/
theorem hardwareFields_ne_nil (p : Profile) : p.hardwareFields.items ≠ [] := by
  intro hnil
  have hkeys := congrArg (List.map Prod.fst) hnil
  rw [Profile.hardwareFields, FieldDict.set, FieldDict.map_fst_setItem] at hkeys
  split at hkeys
  · rename_i hmem
    rw [List.map_nil] at hkeys
    rw [hkeys] at hmem
    cases hmem
  · exact absurd (List.append_eq_nil_iff.1 hkeys).2 (List.cons_ne_nil _ _)

/-- What is shown of the directory of a profile. -/
theorem showProfile_saved {arg : Text} (hs : S.dir (sanitizeSlug arg) = some p.saved) :
    ∃ s, showProfile S arg = some s ∧ s.displayName = .str p.displayName ∧ s.slug = .str p.slug ∧
      s.fields = .obj (p.hardwareFields.items.map fun kv => (kv.1, .str kv.2)) := by
  have hname : p.payload (txt "profile_display_name") = some (.str p.displayName) := if_pos rfl
  have hfields : p.payload (txt "hardware_fields") =
      some (.obj (p.hardwareFields.items.map fun kv => (kv.1, .str kv.2))) := by
    have h₁ : txt "hardware_fields" ≠ txt "profile_display_name" := by decide +kernel
    have h₂ : txt "hardware_fields" ≠ txt "profile_slug" := by decide +kernel
    have h₃ : txt "hardware_fields" ≠ txt "created_utc" := by decide +kernel
    rw [Profile.payload, if_neg h₁, if_neg h₂, if_neg h₃, if_pos rfl]
  refine ⟨_, congrArg (Option.map _) hs, ?_, ?_, ?_⟩
  · simp only [Profile.saved, hname, Option.getD_some]
  · simp only [Profile.saved, p.payload_slug, Option.getD_some]
  · have htruthy : (Json.obj (p.hardwareFields.items.map fun kv => (kv.1, .str kv.2))).truthy =
        true := by
      simpa [Json.truthy] using hardwareFields_ne_nil p
    simp only [Profile.saved, hfields, Json.orElse, htruthy, if_true]

/-- **By its slug** a profile is shown unless the slug is a word of the dispatcher. -/
theorem shows_slug_iff (h : S.save p = some S') :
    Shows S' p p.slug ↔ p.slug ∉ reservedWords := by
  constructor
  · rintro ⟨s, hs, -⟩ hr
    exact dispatch_of_reserved hr hs
  · intro hr
    have hdir : S'.dir (sanitizeSlug p.slug) = some p.saved := by
      rw [sanitizeSlug_of_isSlug (isSlug_slug p)]
      exact dir_of_save h
    obtain ⟨s, hs, hshown⟩ := showProfile_saved hdir
    exact ⟨s, by rw [dispatch_of_not_reserved (isSlug_slug p).ne_nil hr, hs], hshown⟩

/-- **By the identifier of the listing** it is shown for one slug only. -/
theorem shows_listed_iff (h : S.save p = some S') :
    Shows S' p p.listed.target ↔ p.slug = fixedSlug := by
  have hprefix : listPrefix ≠ [] := by decide +kernel
  have hne : listPrefix ++ p.slug ≠ [] := fun hnil => hprefix (List.append_eq_nil_iff.1 hnil).1
  have hr : listPrefix ++ p.slug ∉ reservedWords := by
    -- no word of the dispatcher has a slash
    have hslash : ∀ w ∈ reservedWords, '/' ∉ w := by decide +kernel
    have hmem : '/' ∈ listPrefix := by decide +kernel
    exact fun hr => hslash _ hr (List.mem_append_left _ hmem)
  rw [← sanitizeSlug_generated_iff (isSlug_slug p)]
  constructor
  · rintro ⟨s, hs, -, hslug, -⟩
    -- the directory that is shown has the slug in it
    rw [Profile.listed, dispatch_of_not_reserved hne hr] at hs
    have hs : showProfile S' (listPrefix ++ p.slug) = some s := by injection hs
    obtain ⟨d, hd, rfl⟩ := Option.map_eq_some_iff.1 hs
    simp only [S'.slug_eq _ _ hd, Option.getD_some, Json.str.injEq] at hslug
    exact hslug
  · intro hfix
    have hdir : S'.dir (sanitizeSlug (listPrefix ++ p.slug)) = some p.saved := by
      rw [hfix]
      exact dir_of_save h
    obtain ⟨s, hs, hshown⟩ := showProfile_saved hdir
    exact ⟨s, by rw [Profile.listed, dispatch_of_not_reserved hne hr, hs], hshown⟩

/-- **The exact condition**: a profile that was saved can be found again in both ways iff its slug
is the one that the prefix of the listing leads back to. -/
theorem reachable_iff (S S' : Store) (p : Profile) (h : S.save p = some S') :
    (Shows S' p p.slug ↔ p.slug ∉ reservedWords) ∧
      (Shows S' p p.listed.target ↔ p.slug = fixedSlug) ∧
      (Reachable S' p ↔ p.slug = fixedSlug) := by
  have hfixed : fixedSlug ∉ reservedWords := by decide +kernel
  refine ⟨shows_slug_iff h, shows_listed_iff h, ?_⟩
  rw [Reachable, shows_slug_iff h, shows_listed_iff h]
  constructor
  · rintro ⟨-, hslug, -⟩
    exact hslug
  · intro hslug
    rw [hslug]
    exact ⟨hfixed, rfl, hfixed⟩

/-! ### Two profiles that are not found -/

/-- No profile is saved yet. -/
def emptyStore : Store where
  dir _ := none
  slug_eq _ _ h := by cases h

/-- A profile of a name, with one field. -/
def sampleProfile (name : Text) (h : '\x00' ∉ name) : Profile where
  displayName := name
  fields :=
    { items := [(txt "TARGET_ARCH", txt "AMD64")]
      nodup := by decide +kernel
      names := by decide +kernel
      noNul := by decide +kernel }
  details _ := none
  warnings := []
  created := txt "2024-01-01T00:00:00+00:00"
  displayName_noNul := h
  created_noNul := by decide +kernel

/-- The example of the usage text. -/
def friend : Profile := sampleProfile (txt "Friend AMD PC") (by decide +kernel)

/-- A profile with a word of the dispatcher as its name. -/
def universal : Profile := sampleProfile (txt "Universal x86") (by decide +kernel)

theorem save_emptyStore (p : Profile) : ∃ S', emptyStore.save p = some S' := ⟨_, rfl⟩

theorem reachable_iff_friend : ∃ S', emptyStore.save friend = some S' ∧
    (Shows S' friend friend.slug ↔ friend.slug ∉ reservedWords) ∧
      (Shows S' friend friend.listed.target ↔ friend.slug = fixedSlug) ∧
      (Reachable S' friend ↔ friend.slug = fixedSlug) := by
  obtain ⟨S', h⟩ := save_emptyStore friend
  exact ⟨S', h, reachable_iff emptyStore S' friend h⟩

/-- By what the listing prints, the one is not found; the other is shadowed. -/
theorem friend_and_universal_lost :
    (∃ S', emptyStore.save friend = some S' ∧ ¬ Shows S' friend friend.listed.target) ∧
      ∃ S', emptyStore.save universal = some S' ∧ universal.slug ∈ reservedWords ∧
        ¬ Shows S' universal universal.slug := by
  have hslug : friend.slug ≠ fixedSlug := by decide +kernel
  have hword : universal.slug ∈ reservedWords := by decide +kernel
  obtain ⟨S₁, h₁⟩ := save_emptyStore friend
  obtain ⟨S₂, h₂⟩ := save_emptyStore universal
  refine ⟨⟨S₁, h₁, fun hs => hslug ((shows_listed_iff h₁).1 hs)⟩, S₂, h₂, hword, fun hs => ?_⟩
  exact (shows_slug_iff h₂).1 hs hword

end Profiles

end InstallKit
