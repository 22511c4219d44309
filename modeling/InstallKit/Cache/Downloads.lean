import InstallKit.Cache.Manifest
import InstallKit.Shell.Statements
import Mathlib.Data.List.DropRight

/-!
# Verified downloads

`download_cached` of `prepare_aspire4310_macos.sh` and the download of `select_opencore_release.sh`
fill the same directory and write the same manifest, but they trust a file that is there already in
two ways: the first one loads it once more and compares, the second one takes it as it is.

Every command may fail, and every run may be cut off; a `curl` that fails leaves anything behind,
and a `printf` any beginning of its line.  The two are otherwise alone with the directory.

* `downloadCached_advances` : what a run of `download_cached` does to the directory, at every
  boundary.
* `selectDownload_advances` : the same of the selector, when the file that it finds was served.
* `manifest_sound` : after any runs of `download_cached`, whatever the directory held, every entry
  is about bytes that its address has served.
* `shared_manifest_sound` : so it is with the selector, from an empty directory.
* `accepted_served` : a cache hit is a file with the digest of such bytes.
* `download_recovers` : no interrupted run stands in the way of a later one.
-/

namespace InstallKit

namespace Cache

open Sources Shell Stmt

/-! ### The world -/

/-- What is relied on of `awk` and of the programs for digests. -/
structure Tools where
  /-- The numbers of `awk`. -/
  Number : Type
  [decEq : DecidableEq Number]
  /-- The number that a text looks like. -/
  number : Text → Option Number
  /-- An address does not look like a number. -/
  number_colon : ∀ t, ':' ∈ t → number t = none
  /-- The digest, as `shasum -a 256` prints it. -/
  sha256 : List UInt8 → Text
  sha256_hex : ∀ b, ∀ c ∈ sha256 b, c ∈ "0123456789abcdef".toList

instance (T : Tools) : DecidableEq T.Number := T.decEq

/-- The directory `downloads`, and what happened so far. -/
structure World where
  /-- The files, without the manifest. -/
  files : Text → Option (List UInt8)
  /-- `manifest.tsv` -/
  manifest : Option Text
  /-- What every address has served. -/
  served : List (Text × List UInt8)

/-- One file has other contents, or is gone. -/
def World.put (w : World) (f : Text) (content : Option (List UInt8)) : World :=
  { w with files := fun g => if g = f then content else w.files g }

@[simp] theorem World.put_self (w : World) (f : Text) (content : Option (List UInt8)) :
    (w.put f content).files f = content := if_pos rfl

theorem World.put_of_ne {w : World} {f g : Text} {content : Option (List UInt8)} (h : g ≠ f) :
    (w.put f content).files g = w.files g := if_neg h

@[simp] theorem World.put_manifest (w : World) (f : Text) (content : Option (List UInt8)) :
    (w.put f content).manifest = w.manifest := rfl

@[simp] theorem World.put_served (w : World) (f : Text) (content : Option (List UInt8)) :
    (w.put f content).served = w.served := rfl

/-- The commands of the two scripts. -/
inductive Cmd
  /-- `log`, `warn`, `mkdir -p` -/
  | run (line : String)
  /-- `date -u '+%Y-%m-%dT%H:%M:%SZ'` -/
  | date
  /-- `[[ -f "$MANIFEST" ]]` -/
  | hasManifest
  /-- `printf 'timestamp\tsource\t...' >"$MANIFEST"` -/
  | writeHeader
  /-- `awk -F '\t' ... "$MANIFEST"` -/
  | confirms (e : Entry)
  /-- `printf ... >>"$MANIFEST"` -/
  | append (stamp source version : Text) (e : Entry)
  /-- `[[ -s f ]]` -/
  | nonempty (f : Text)
  /-- `sha256_file f` -/
  | sha256File (f : Text)
  /-- `curl -fL --retry 3 --connect-timeout 20 -o f url` -/
  | curl (f url : Text)
  /-- `mv -- f g` -/
  | mv (f g : Text)
  /-- `rm -f -- f` -/
  | rm (f : Text)

/-- The first line of the manifest. -/
def header : Text :=
  tabbed ["timestamp".toList, "source".toList, "version".toList, "url".toList, "filename".toList,
    "sha256".toList, "status".toList] ++ ['\n']

/-- What a command with this reply may do.  Tests answer truthfully, and so does the `awk` that looks
for an entry: one that failed would be taken for an entry that is missing. -/
def Effect (T : Tools) (_ : List (Cmd × Reply)) : Cmd → Reply → World → World → Prop
  | .run _, _, w, w' => w' = w
  | .date, r, w, w' => w' = w ∧ IsStamp r.out
  | .hasManifest, r, w, w' => w' = w ∧ (r.status = 0 ↔ w.manifest ≠ none)
  | .writeHeader, r, w, w' =>
    w' = w ∧ r.status ≠ 0 ∨
      ∃ p, p <+: header ∧ (r.status = 0 → p = header) ∧ w' = { w with manifest := some p }
  | .confirms e, r, w, w' =>
    w' = w ∧ (r.status = 0 ↔ ∃ m, w.manifest = some m ∧ confirms T.number m e = true)
  | .append stamp source version e, r, w, w' =>
    w' = w ∧ r.status ≠ 0 ∨
      ∃ p, p <+: row stamp source version e ∧
        (r.status = 0 → p = row stamp source version e) ∧
        w' = { w with manifest := some (w.manifest.getD [] ++ p) }
  | .nonempty f, r, w, w' => w' = w ∧ (r.status = 0 ↔ ∃ b, w.files f = some b ∧ b ≠ [])
  | .sha256File f, r, w, w' =>
    w' = w ∧ (r.status = 0 → ∃ b, w.files f = some b ∧ r.out = T.sha256 b)
  | .curl f url, r, w, w' =>
    if r.status = 0 then
      ∃ b, w' = { w.put f (some b) with served := (url, b) :: w.served }
    else ∃ content, w' = w.put f content
  | .mv f g, r, w, w' => r.status ≠ 0 ∧ w' = w ∨
    ∃ b, w.files f = some b ∧ w' = (w.put f none).put g (some b)
  | .rm f, r, w, w' => r.status ≠ 0 ∧ w' = w ∨ w' = w.put f none

/-! ### The scripts -/

abbrev Sh := Script Unit Cmd Reply

/-- How the name of a file ends that is not complete. -/
def partSuffix : Text := ['.', 'p', 'a', 'r', 't']

/-- `basename path` -/
def basename (path : Text) : Text := path.rtakeWhile (· ≠ '/')

/-- The arguments of a download. -/
structure Request where
  url : Text
  destination : Text
  source : Text
  version : Text
  url_field : IsField url
  url_colon : ':' ∈ url
  filename_field : IsField (basename destination)
  source_field : IsField source
  version_field : IsField version
  /-- No download is kept under the name of one that is not complete. -/
  not_part : ¬ partSuffix <:+ destination

namespace Request

variable (r : Request)

/-- `${destination}.part` -/
def part : Text := r.destination ++ partSuffix

/-- `${destination}.verify.part` -/
def verifyPart : Text := r.destination ++ (['.', 'v', 'e', 'r', 'i', 'f', 'y'] ++ partSuffix)

def entry (digest : Text) : Entry := ⟨r.url, basename r.destination, digest⟩

end Request

/-- How `download_cached` ends. -/
inductive Result
  /-- `Verified cache hit` -/
  | hit
  /-- The file was loaded once more, and it is the same. -/
  | compared
  | downloaded
  deriving DecidableEq

def ensureManifest : Sh Unit := do
  if !(← holds .hasManifest) then
    exec .writeHeader

def manifestConfirms (e : Entry) : Sh Bool := holds (.confirms e)

def recordManifest (source version : Text) (e : Entry) : Sh Unit := do
  if !(← manifestConfirms e) then
    let stamp := (← glance .date).out
    exec (.append stamp source version e)

/-- A new file, which both scripts load in the same three steps. -/
def load (r : Request) : Sh Unit := do
  exec (.curl r.part r.url)
  require (.nonempty r.part) "Empty download: $url"
  exec (.mv r.part r.destination)

/-- `download_cached` -/
def downloadCached (r : Request) : Sh Result := do
  ensureManifest
  if ← holds (.nonempty r.destination) then
    let digest ← capture (.sha256File r.destination)
    if ← manifestConfirms (r.entry digest) then
      exec (.run "log \"Verified cache hit: $filename\"")
      return .hit
    exec (.run ("warn \"Existing $filename has no matching manifest entry; " ++
      "downloading once to compare.\""))
    exec (.curl r.verifyPart r.url)
    let tempDigest ← capture (.sha256File r.verifyPart)
    orDie (digest = tempDigest) ("Existing $filename differs from current upstream. " ++
      "Both files were preserved ($\x7bdestination\x7d.verify.part).")
    exec (.rm r.verifyPart)
    recordManifest r.source r.version (r.entry digest)
    return .compared
  exec (.run "log \"Downloading $source $version: $filename\"")
  load r
  let digest ← capture (.sha256File r.destination)
  recordManifest r.source r.version (r.entry digest)
  return .downloaded

/-- The download of `select_opencore_release.sh`, up to its entry in the manifest. -/
def selectDownload (r : Request) : Sh Result := do
  exec (.run "mkdir -p \"$DOWNLOADS_DIR\"")
  if !(← holds (.nonempty r.destination)) then
    exec (.run "log \"Downloading OpenCore $resolved_version $VARIANT\"")
    load r
  else
    exec (.run "log \"Using cached archive: $archive\"")
  let digest ← capture (.sha256File r.destination)
  exec (.run "mkdir -p \"$DOWNLOADS_DIR\"")
  ensureManifest
  recordManifest r.source r.version (r.entry digest)
  return .downloaded

/-! ### What a run does -/

section Runs

variable {T : Tools} {r : Request} {w v v' : World} {e : Entry} {l : List (Cmd × Reply)}
  {b : List UInt8} {f p stamp source version : Text}

/-- The entries of the manifest, if there is one. -/
def World.entries (w : World) : List Entry := Cache.entries (w.manifest.getD [])

/-- The entry is about bytes that its address has served. -/
def Served (T : Tools) (w : World) (e : Entry) : Prop :=
  ∃ b, (e.url, b) ∈ w.served ∧ e.sha256 = T.sha256 b

/-- Every entry is about bytes that its address has served, and none is there twice. -/
structure Sound (T : Tools) (w : World) : Prop where
  served : ∀ e ∈ w.entries, Served T w e
  nodup : w.entries.Nodup

/-- What the manifest has become, while nothing else has changed. -/
structure Recorded (T : Tools) (w w' : World) : Prop where
  sound : Sound T w'
  served : w'.served = w.served
  files : w'.files = w.files

/-- What a run for a request has made of the directory, at any boundary. -/
structure Advances (T : Tools) (r : Request) (w w' : World) : Prop where
  sound : Sound T w'
  served : w.served ⊆ w'.served
  files : ∀ f, ¬ partSuffix <:+ f → w'.files f = w.files f ∨
    f = r.destination ∧ ∃ b, w'.files f = some b ∧ (r.url, b) ∈ w'.served

theorem sha256_field (T : Tools) (b : List UInt8) : IsField (T.sha256 b) := by
  have hout : ∀ c, c ∉ "0123456789abcdef".toList → c ∉ T.sha256 b :=
    fun c hc h => hc (T.sha256_hex b c h)
  refine ⟨hout _ (by decide), hout _ (by decide), hout _ (by decide), fun h => ?_⟩
  exact hout 'V' (by decide) (h.subset (by decide))

theorem Request.record (r : Request) (hstamp : IsStamp stamp) (T : Tools) (b : List UInt8) :
    IsRecord stamp r.source r.version (r.entry (T.sha256 b)) :=
  ⟨hstamp, r.source_field, r.version_field, r.url_field, r.filename_field, sha256_field T b⟩

theorem Served.mono {w' : World} (h : Served T w e) (hw : w.served ⊆ w'.served) :
    Served T w' e := by
  obtain ⟨b, hb, he⟩ := h
  exact ⟨b, hw hb, he⟩

/-- Only the manifest matters, and what was served. -/
theorem Sound.congr {w' : World} (h : Sound T w) (hm : w'.manifest = w.manifest)
    (hs : w.served ⊆ w'.served) : Sound T w' := by
  have hentries : w'.entries = w.entries := by rw [World.entries, hm, World.entries]
  exact ⟨fun e he => (h.served e (hentries ▸ he)).mono hs, hentries ▸ h.nodup⟩

theorem entries_nil : entries [] = [] := by decide

/-- A header that is cut off has no entry either. -/
theorem entries_header (h : p <+: header) : entries p = [] := by
  rcases List.prefix_concat_iff.1 h with rfl | hp
  · decide
  · have hnew : '\n' ∉ p := not_mem_of_initial hp (by decide)
    show entries (unlines [] ++ p) = _
    exact entries_open (fun _ h => absurd h List.not_mem_nil) hnew

theorem Sound.header (h : p <+: header) : Sound T { w with manifest := some p } := by
  have hentries : World.entries { w with manifest := some p } = [] := entries_header h
  exact ⟨fun e he => absurd (hentries ▸ he) List.not_mem_nil, hentries ▸ List.nodup_nil⟩

/-- An entry that is not confirmed is new. -/
theorem not_mem_of_not_confirmed
    (h : ¬ ∃ m, w.manifest = some m ∧ confirms T.number m e = true) : e ∉ w.entries := by
  intro he
  cases hm : w.manifest with
  | none =>
    rw [World.entries, hm, Option.getD_none, entries_nil] at he
    exact List.not_mem_nil he
  | some m =>
    rw [World.entries, hm, Option.getD_some] at he
    exact h ⟨m, hm, confirms_of_mem T.number he⟩

/-- **A write keeps the manifest sound**, wherever it is cut off. -/
theorem Sound.append (hw : Sound T w) (hrec : IsRecord stamp source version e)
    (hserved : Served T w e) (hnew : e ∉ w.entries) (hp : p <+: row stamp source version e) :
    Sound T { w with manifest := some (w.manifest.getD [] ++ p) } := by
  have hentries : World.entries { w with manifest := some (w.manifest.getD [] ++ p) } =
      Cache.entries (w.manifest.getD [] ++ p) := rfl
  have hold : w.entries = Cache.entries (w.manifest.getD []) := rfl
  constructor
  · intro e' he'
    rw [hentries] at he'
    rcases entries_append hrec hp with hsub | heq
    · exact hw.served e' (hold ▸ hsub.subset he')
    · rw [heq, List.mem_append, List.mem_singleton] at he'
      obtain he' | rfl := he'
      exacts [hw.served e' (hold ▸ he'), hserved]
  · rw [hentries]
    rcases entries_append hrec hp with hsub | heq
    · exact hw.nodup.sublist hsub
    · rw [heq, ← hold, List.nodup_append]
      refine ⟨hw.nodup, by simp, ?_⟩
      rintro e' he' _ (_ | ⟨_, ⟨⟩⟩) rfl
      exact hnew he'

theorem Recorded.refl (h : Sound T w) : Recorded T w w := ⟨h, rfl, rfl⟩

/-- The manifest is there, or it is made. -/
theorem ensures_ensureManifest (hw : Sound T w) :
    Ensures (Effect T) (fun _ => Recorded T w) ensureManifest (fun _ _ => Recorded T w) l w := by
  have h := Recorded.refl hw
  rw [ensureManifest, ensures_bind, ensures_holds]
  refine ⟨h, ?_⟩
  rintro r w ⟨rfl, -⟩
  refine ⟨h, ?_⟩
  split
  · rw [ensures_exec]
    refine ⟨h, ?_⟩
    rintro r v (⟨rfl, -⟩ | ⟨p, hp, -, rfl⟩)
    · exact ⟨h, fun _ => h⟩
    · have hp : Recorded T w { w with manifest := some p } := ⟨.header hp, rfl, rfl⟩
      exact ⟨hp, fun _ => hp⟩
  · exact ⟨h, h⟩

/-- The entry is in the manifest, or it is written. -/
theorem ensures_recordManifest (hw : Sound T w) (hserved : Served T w e)
    (hrec : ∀ stamp, IsStamp stamp → IsRecord stamp source version e) :
    Ensures (Effect T) (fun _ => Recorded T w) (recordManifest source version e)
      (fun _ _ => Recorded T w) l w := by
  have h := Recorded.refl hw
  rw [recordManifest, ensures_bind, manifestConfirms, ensures_holds]
  refine ⟨h, ?_⟩
  rintro r w ⟨rfl, hconf⟩
  refine ⟨h, ?_⟩
  split
  · next hr =>
    have hnew : e ∉ w.entries := by
      refine not_mem_of_not_confirmed (T := T) fun hc => ?_
      simp [hconf.2 hc] at hr
    rw [ensures_bind, ensures_glance]
    refine ⟨h, ?_⟩
    rintro d w ⟨rfl, hstamp⟩
    refine ⟨h, ?_⟩
    rw [ensures_exec]
    refine ⟨h, ?_⟩
    rintro a v (⟨rfl, -⟩ | ⟨p, hp, -, rfl⟩)
    · exact ⟨h, fun _ => h⟩
    · have hp : Recorded T w { w with manifest := some (w.manifest.getD [] ++ p) } :=
        ⟨hw.append (hrec _ hstamp) hserved hnew hp, rfl, rfl⟩
      exact ⟨hp, fun _ => hp⟩
  · exact ⟨h, h⟩

/-! ### The runs of the two scripts -/

theorem Advances.refl (h : Sound T w) : Advances T r w w :=
  ⟨h, List.Subset.refl _, fun _ _ => Or.inl rfl⟩

theorem Advances.recorded (h : Advances T r w v) (hv : Recorded T v v') : Advances T r w v' where
  sound := hv.sound
  served := hv.served ▸ h.served
  files f hf := by
    rw [hv.files, hv.served]
    exact h.files f hf

/-- A file that is not complete may hold anything. -/
theorem Advances.put_part (h : Advances T r w v) (hf : partSuffix <:+ f)
    (content : Option (List UInt8)) : Advances T r w (v.put f content) where
  sound := h.sound.congr rfl (List.Subset.refl _)
  served := h.served
  files g hg := by
    have hne : g ≠ f := fun hgf => hg (hgf ▸ hf)
    rw [World.put_of_ne hne]
    exact h.files g hg

/-- More was served. -/
theorem Advances.serve (h : Advances T r w v) (url : Text) (b : List UInt8) :
    Advances T r w { v with served := (url, b) :: v.served } where
  sound := h.sound.congr rfl (List.subset_cons_self _ _)
  served := List.Subset.trans h.served (List.subset_cons_self _ _)
  files f hf := by
    rcases h.files f hf with heq | ⟨rfl, b', hb, hmem⟩
    · exact Or.inl heq
    · exact Or.inr ⟨rfl, b', hb, List.mem_cons_of_mem _ hmem⟩

/-- A complete file is put in its place. -/
theorem Advances.moved (h : Advances T r w v) (hf : partSuffix <:+ f) (hb : (r.url, b) ∈ v.served) :
    Advances T r w ((v.put f none).put r.destination (some b)) where
  sound := h.sound.congr rfl (List.Subset.refl _)
  served := h.served
  files g hg := by
    by_cases hgd : g = r.destination
    · subst hgd
      exact Or.inr ⟨rfl, b, World.put_self _ _ _, hb⟩
    · rw [World.put_of_ne hgd]
      exact (h.put_part hf none).files g hg

theorem Request.suffix_part (r : Request) : partSuffix <:+ r.part := List.suffix_append _ _

theorem Request.suffix_verifyPart (r : Request) : partSuffix <:+ r.verifyPart :=
  (List.suffix_append _ _).trans (List.suffix_append _ _)

theorem Request.destination_ne_verifyPart (r : Request) : r.destination ≠ r.verifyPart :=
  fun h => r.not_part (h ▸ r.suffix_verifyPart)

/-- The last steps of both scripts. -/
theorem ensures_record (h : Advances T r w v) (hb : (r.url, b) ∈ v.served) :
    Ensures (Effect T) (fun _ => Advances T r w)
      (recordManifest r.source r.version (r.entry (T.sha256 b)))
      (fun _ _ v' => Advances T r w v' ∧ v'.files = v.files ∧ v'.served = v.served) l v :=
  (ensures_recordManifest h.sound ⟨b, hb, rfl⟩ fun _ hs => r.record hs T b).mono
    (fun _ _ => h.recorded) (fun _ _ _ hv => ⟨h.recorded hv, hv.files, hv.served⟩)

/-- A new file: it is loaded beside its place, and moved there. -/
theorem ensures_load (h : Advances T r w v) :
    Ensures (Effect T) (fun _ => Advances T r w) (load r)
      (fun _ _ v' => Advances T r w v' ∧
        ∃ b, v'.files r.destination = some b ∧ (r.url, b) ∈ v'.served) l v := by
  rw [load, ensures_bind, ensures_exec]
  refine ⟨h, fun c v₁ hcurl => ?_⟩
  by_cases hc : c.status = 0
  · rw [Effect, if_pos hc] at hcurl
    obtain ⟨b, rfl⟩ := hcurl
    have h₁ := (h.put_part r.suffix_part (some b)).serve r.url b
    refine ⟨h₁, fun _ => ?_⟩
    rw [ensures_bind, ensures_require]
    refine ⟨h₁, ?_⟩
    rintro t v₂ ⟨rfl, -⟩
    refine ⟨h₁, fun _ => ?_⟩
    rw [ensures_exec]
    refine ⟨h₁, fun m v₃ hmv => ?_⟩
    obtain ⟨hm, rfl⟩ | ⟨b', hb', rfl⟩ := hmv
    · exact ⟨h₁, fun h0 => absurd h0 hm⟩
    · obtain rfl : b = b' := Option.some.inj ((World.put_self v r.part (some b)).symm.trans hb')
      have hserved : (r.url, b) ∈ (r.url, b) :: v.served := List.mem_cons_self
      have h₃ := h₁.moved r.suffix_part hserved
      exact ⟨h₃, fun _ => ⟨h₃, b, World.put_self _ _ _, hserved⟩⟩
  · rw [Effect, if_neg hc] at hcurl
    obtain ⟨content, rfl⟩ := hcurl
    exact ⟨h.put_part r.suffix_part content, fun h0 => absurd h0 hc⟩

/-- A command without an effect on the directory. -/
theorem ensures_run {I : World → Prop} {line : String}
    {Q : Unit → List (Cmd × Reply) → World → Prop} (hI : I w) (hQ : ∀ l, Q () l w) :
    Ensures (Effect T) (fun _ => I) (exec (.run line) : Sh Unit) Q l w := by
  rw [ensures_exec]
  refine ⟨hI, ?_⟩
  rintro r _ rfl
  exact ⟨hI, fun _ => hQ _⟩

/-- The digest of a file. -/
theorem ensures_sha256 {I : World → Prop} {Q : Text → List (Cmd × Reply) → World → Prop} (hI : I w)
    (hQ : ∀ l b, w.files f = some b → Q (T.sha256 b) l w) :
    Ensures (Effect T) (fun _ => I) (capture (.sha256File f) : Sh Text) Q l w := by
  rw [ensures_capture]
  refine ⟨hI, ?_⟩
  rintro d _ ⟨rfl, hd⟩
  refine ⟨hI, fun h0 => ?_⟩
  obtain ⟨b, hb, hout⟩ := hd h0
  exact hout ▸ hQ _ b hb

/-- What a result says about the file. -/
def Accepted (T : Tools) (r : Request) (w : World) : Result → Prop
  | .hit => ∃ b b', w.files r.destination = some b ∧ (r.url, b') ∈ w.served ∧
      same T.number (T.sha256 b') (T.sha256 b) = true
  | .compared => ∃ b b', w.files r.destination = some b ∧ (r.url, b') ∈ w.served ∧
      T.sha256 b' = T.sha256 b
  | .downloaded => ∃ b, w.files r.destination = some b ∧ (r.url, b) ∈ w.served

/-- What is confirmed was served. -/
theorem served_of_confirmed (hw : Sound T w)
    (h : ∃ m, w.manifest = some m ∧ confirms T.number m (r.entry (T.sha256 b)) = true) :
    ∃ b', (r.url, b') ∈ w.served ∧ same T.number (T.sha256 b') (T.sha256 b) = true := by
  obtain ⟨m, hm, hconf⟩ := h
  obtain ⟨e, he, hurl, -, hsha⟩ := (confirms_iff T.number m _).1 hconf
  have hentries : w.entries = Cache.entries m := by rw [World.entries, hm, Option.getD_some]
  obtain ⟨b', hb', hdigest⟩ := hw.served e (hentries ▸ he)
  have heq : e.url = r.url := (same_iff T.number (Or.inr (T.number_colon _ r.url_colon))).1 hurl
  rw [heq] at hb'
  rw [hdigest] at hsha
  exact ⟨b', hb', hsha⟩

/-- **A run of `download_cached`**, wherever it is cut off and whatever fails in it. -/
theorem downloadCached_advances (hw : Sound T w) :
    Ensures (Effect T) (fun _ => Advances T r w) (downloadCached r)
      (fun result _ w' => Advances T r w w' ∧ Accepted T r w' result) l w := by
  rw [downloadCached, ensures_bind]
  refine (ensures_ensureManifest hw).mono (fun _ _ => (Advances.refl hw).recorded) ?_
  intro _ l v hv
  have h := (Advances.refl (r := r) hw).recorded hv
  rw [ensures_bind, ensures_holds]
  refine ⟨h, ?_⟩
  rintro t v ⟨rfl, -⟩
  refine ⟨h, ?_⟩
  split
  · -- the file is there
    rw [ensures_bind]
    refine ensures_sha256 h fun l b hb => ?_
    rw [ensures_bind, manifestConfirms, ensures_holds]
    refine ⟨h, ?_⟩
    rintro c v ⟨rfl, hconf⟩
    refine ⟨h, ?_⟩
    split
    · next hc =>
      rw [ensures_bind]
      refine ensures_run h fun l => ⟨h, h, ?_⟩
      obtain ⟨b', hb', hsame⟩ := served_of_confirmed h.sound (hconf.1 (by simpa using hc))
      exact ⟨b, b', hb, hb', hsame⟩
    · rw [ensures_bind]
      refine ensures_run h fun l => ?_
      rw [ensures_bind, ensures_exec]
      refine ⟨h, fun u v₁ hcurl => ?_⟩
      by_cases hu : u.status = 0
      · rw [Effect, if_pos hu] at hcurl
        obtain ⟨b', rfl⟩ := hcurl
        have h₁ := (h.put_part r.suffix_verifyPart (some b')).serve r.url b'
        refine ⟨h₁, fun _ => ?_⟩
        rw [ensures_bind]
        refine ensures_sha256 h₁ fun l b'' hb'' => ?_
        obtain rfl : b' = b'' := Option.some.inj ((World.put_self v r.verifyPart _).symm.trans hb'')
        rw [ensures_bind, ensures_orDie, decide_eq_true_iff]
        refine ⟨h₁, fun hdigest => ?_⟩
        have hserved : (r.url, b') ∈ (r.url, b') :: v.served := List.mem_cons_self
        have hdest : (v.put r.verifyPart (some b')).files r.destination = some b := by
          rw [World.put_of_ne r.destination_ne_verifyPart]
          exact hb
        rw [ensures_bind, ensures_exec]
        refine ⟨h₁, fun d v₂ hrm => ?_⟩
        -- whether the file beside it is gone or not
        obtain ⟨h₂, hdest₂, hserved₂⟩ : Advances T r w v₂ ∧ v₂.files r.destination = some b ∧
            (r.url, b') ∈ v₂.served := by
          rw [Effect] at hrm
          obtain ⟨-, rfl⟩ | rfl := hrm
          · exact ⟨h₁, hdest, hserved⟩
          · refine ⟨h₁.put_part r.suffix_verifyPart none, ?_, hserved⟩
            rw [World.put_of_ne r.destination_ne_verifyPart]
            exact hdest
        refine ⟨h₂, fun _ => ?_⟩
        rw [ensures_bind, hdigest]
        refine (ensures_record h₂ hserved₂).imp ?_
        rintro _ l v₃ ⟨h₃, hfiles, hsame⟩
        exact ⟨h₃, h₃, b, b', by rw [hfiles, hdest₂], hsame ▸ hserved₂, hdigest.symm⟩
      · rw [Effect, if_neg hu] at hcurl
        obtain ⟨content, rfl⟩ := hcurl
        exact ⟨h.put_part r.suffix_verifyPart content, fun h0 => absurd h0 hu⟩
  · -- it is not there
    rw [ensures_bind]
    refine ensures_run h fun l => ?_
    rw [ensures_bind]
    refine (ensures_load h).imp ?_
    rintro _ l v₁ ⟨h₁, b, hb, hserved⟩
    rw [ensures_bind]
    refine ensures_sha256 h₁ fun l b' hb' => ?_
    obtain rfl : b = b' := Option.some.inj (hb.symm.trans hb')
    rw [ensures_bind]
    refine (ensures_record h₁ hserved).imp ?_
    rintro _ l v₂ ⟨h₂, hfiles, hsame⟩
    exact ⟨h₂, h₂, b, by rw [hfiles, hb], hsame ▸ hserved⟩

/-- **A run of the selector**, which does not ask where a file came from that is there. -/
theorem selectDownload_advances (hw : Sound T w)
    (hdisk : ∀ b, w.files r.destination = some b → (r.url, b) ∈ w.served) :
    Ensures (Effect T) (fun _ => Advances T r w) (selectDownload r)
      (fun result _ w' => Advances T r w w' ∧ Accepted T r w' result) l w := by
  have h := Advances.refl (r := r) hw
  -- from a file that was served
  have hrecord : ∀ l v, Advances T r w v →
      (∀ b, v.files r.destination = some b → (r.url, b) ∈ v.served) →
      Ensures (Effect T) (fun _ => Advances T r w)
        (do
          let digest ← capture (.sha256File r.destination)
          exec (.run "mkdir -p \"$DOWNLOADS_DIR\"")
          ensureManifest
          recordManifest r.source r.version (r.entry digest)
          return Result.downloaded : Sh Result)
        (fun result _ w' => Advances T r w w' ∧ Accepted T r w' result) l v := by
    intro l v h hdisk
    rw [ensures_bind]
    refine ensures_sha256 h fun l b hb => ?_
    rw [ensures_bind]
    refine ensures_run h fun l => ?_
    rw [ensures_bind]
    refine (ensures_ensureManifest h.sound).mono (fun _ _ => h.recorded) ?_
    intro _ l v₁ hv₁
    rw [ensures_bind]
    refine (ensures_record (h.recorded hv₁) (hv₁.served ▸ hdisk b hb)).imp ?_
    rintro _ l v₂ ⟨h₂, hfiles, hsame⟩
    exact ⟨h₂, h₂, b, by rw [hfiles, hv₁.files, hb], by rw [hsame, hv₁.served]; exact hdisk b hb⟩
  rw [selectDownload, ensures_bind]
  refine ensures_run h fun l => ?_
  rw [ensures_bind, ensures_holds]
  refine ⟨h, ?_⟩
  rintro t w' ⟨rfl, -⟩
  refine ⟨h, ?_⟩
  split
  · rw [ensures_bind]
    refine ensures_run h fun l => ?_
    rw [ensures_bind]
    refine (ensures_load h).imp ?_
    rintro _ l v₁ ⟨h₁, b, hb, hserved⟩
    refine hrecord l v₁ h₁ fun b' hb' => ?_
    obtain rfl : b = b' := Option.some.inj (hb.symm.trans hb')
    exact hserved
  · rw [ensures_bind]
    exact ensures_run h fun l => hrecord l _ h hdisk

end Runs

/-! ### Sequences of runs -/

section Sessions

variable (T : Tools) {w w' w'' : World} {R : Set Request}

/-- The runs of `download_cached`. -/
def CachedRun (p : Sh Result) : Prop := ∃ r, p = downloadCached r

/-- The runs of both scripts for given requests. -/
def SharedRun (R : Set Request) (p : Sh Result) : Prop :=
  ∃ r ∈ R, p = downloadCached r ∨ p = selectDownload r

theorem World.sound_of_none (hm : w.manifest = none) : Sound T w := by
  have hentries : w.entries = [] := by rw [World.entries, hm, Option.getD_none, entries_nil]
  exact ⟨fun e he => absurd (hentries ▸ he) List.not_mem_nil, hentries ▸ List.nodup_nil⟩

/-- **The manifest is sound** after any runs of `download_cached`, whatever files were there. -/
theorem sound_of_cachedRuns (hw : Sound T w) (h : Sessions (Effect T) CachedRun w w') :
    Sound T w' := by
  refine h.inv hw ?_
  rintro p ⟨r, rfl⟩ v hv
  exact ⟨_, (downloadCached_advances hv).mono (fun _ _ ha => ha.sound) fun _ _ _ h => h⟩

/-- What both scripts keep, when a file has one address. -/
structure Loaded (R : Set Request) (w : World) : Prop where
  sound : Sound T w
  served : ∀ r ∈ R, ∀ b, w.files r.destination = some b → (r.url, b) ∈ w.served

variable {T}

theorem Advances.loaded {r : Request} (h : Advances T r w w') (hw : Loaded T R w) (hr : r ∈ R)
    (hnames : ∀ r ∈ R, ∀ r' ∈ R, r.destination = r'.destination → r.url = r'.url) :
    Loaded T R w' where
  sound := h.sound
  served r' hr' b hb := by
    rcases h.files r'.destination r'.not_part with heq | ⟨hdest, b', hb', hserved⟩
    · exact h.served (hw.served r' hr' b (heq ▸ hb))
    · obtain rfl : b = b' := Option.some.inj (hb.symm.trans hb')
      rw [hnames r' hr' r hr hdest]
      exact hserved

/-- **So it is with both scripts**, from a directory without downloads. -/
theorem loaded_of_sharedRuns
    (hnames : ∀ r ∈ R, ∀ r' ∈ R, r.destination = r'.destination → r.url = r'.url)
    (hw : Loaded T R w) (h : Sessions (Effect T) (SharedRun R) w w') : Loaded T R w' := by
  refine h.inv hw ?_
  rintro p ⟨r, hr, rfl | rfl⟩ v hv
  · exact ⟨_, (downloadCached_advances (r := r) hv.sound).mono
      (fun _ _ ha => ha.loaded hv hr hnames) fun _ _ _ h => h⟩
  · exact ⟨_, (selectDownload_advances (r := r) hv.sound (hv.served r hr)).mono
      (fun _ _ ha => ha.loaded hv hr hnames) fun _ _ _ h => h⟩

/-! ### Runs in which nothing fails -/

/-- What is done and replied when nothing fails: every address serves its file, and the clock is
read once. -/
def perform (T : Tools) (upstream : Text → List UInt8) (stamp : Text) : Cmd → World → Reply × World
  | .run _, w => (.done, w)
  | .date, w => (.text stamp, w)
  | .hasManifest, w => (.test w.manifest.isSome, w)
  | .writeHeader, w => (.done, { w with manifest := some header })
  | .confirms e, w => (.test (w.manifest.any fun m => confirms T.number m e), w)
  | .append stamp source version e, w =>
    (.done, { w with manifest := some (w.manifest.getD [] ++ row stamp source version e) })
  | .nonempty f, w => (.test ((w.files f).any (· ≠ [])), w)
  | .sha256File f, w =>
    match w.files f with
    | some b => (.text (T.sha256 b), w)
    | none => (.failed, w)
  | .curl f url, w =>
    (.done, { w.put f (some (upstream url)) with served := (url, upstream url) :: w.served })
  | .mv f g, w =>
    match w.files f with
    | some b => (.done, (w.put f none).put g (some b))
    | none => (.failed, w)
  | .rm f, w => (.done, w.put f none)

variable {upstream : Text → List UInt8} {stamp f g url : Text} {b : List UInt8} {r : Request}

/-- It is one of the things that can happen. -/
theorem effect_perform (hstamp : IsStamp stamp) (l : List (Cmd × Reply)) (c : Cmd) (w : World) :
    Effect T l c (perform T upstream stamp c w).1 w (perform T upstream stamp c w).2 := by
  cases c with
  | run line => rfl
  | date => exact ⟨rfl, hstamp⟩
  | hasManifest => exact ⟨rfl, by simp [perform, Option.isSome_iff_ne_none]⟩
  | writeHeader => exact Or.inr ⟨header, List.prefix_refl _, fun _ => rfl, rfl⟩
  | confirms e =>
    refine ⟨rfl, ?_⟩
    cases hm : w.manifest <;> simp [perform, hm]
  | append stamp source version e => exact Or.inr ⟨_, List.prefix_refl _, fun _ => rfl, rfl⟩
  | nonempty f =>
    refine ⟨rfl, ?_⟩
    cases hf : w.files f <;> simp [perform, hf]
  | sha256File f =>
    cases hf : w.files f with
    | none =>
      simp only [perform, hf]
      exact ⟨rfl, fun h => absurd h Nat.one_ne_zero⟩
    | some b =>
      simp only [perform, hf]
      exact ⟨rfl, fun _ => ⟨b, hf, rfl⟩⟩
  | curl f url =>
    rw [Effect, if_pos (show (perform T upstream stamp (.curl f url) w).1.status = 0 from rfl)]
    exact ⟨upstream url, rfl⟩
  | mv f g =>
    cases hf : w.files f with
    | none =>
      simp only [perform, hf]
      exact Or.inl ⟨Nat.one_ne_zero, rfl⟩
    | some b =>
      simp only [perform, hf]
      exact Or.inr ⟨b, hf, rfl⟩
  | rm f => exact Or.inr rfl

theorem play_ensureManifest (T : Tools) (upstream : Text → List UInt8) (stamp : Text) (w : World) :
    ∃ m, play (perform T upstream stamp) ensureManifest w =
    (.ret (), { w with manifest := some m }) := by
  obtain ⟨files, manifest, served⟩ := w
  cases manifest with
  | none => exact ⟨header, rfl⟩
  | some m => exact ⟨m, rfl⟩

theorem play_recordManifest (T : Tools) (upstream : Text → List UInt8)
    (stamp source version : Text) (e : Entry) (w : World) :
    ∃ m, play (perform T upstream stamp) (recordManifest source version e) w =
      (.ret (), { w with manifest := m }) := by
  rw [recordManifest, manifestConfirms, play_holds]
  split
  · exact ⟨_, rfl⟩
  · exact ⟨_, rfl⟩

theorem perform_nonempty (hb : w.files f = some b) :
    perform T upstream stamp (.nonempty f) w = (.test (b ≠ []), w) := by
  simp [perform, hb]

theorem perform_sha256 (hb : w.files f = some b) :
    perform T upstream stamp (.sha256File f) w = (.text (T.sha256 b), w) := by
  simp [perform, hb]

theorem perform_mv (hb : w.files f = some b) :
    perform T upstream stamp (.mv f g) w = (.done, (w.put f none).put g (some b)) := by
  simp [perform, hb]

/-- The entry is written or not; the files stay. -/
theorem play_finish {source version : Text} {e : Entry} {result : Result} :
    ∃ v, play (perform T upstream stamp) (do recordManifest source version e; return result) w =
      (.ret result, v) ∧ v.files = w.files := by
  obtain ⟨m, hm⟩ := play_recordManifest T upstream stamp source version e w
  exact ⟨{ w with manifest := m }, by rw [play_bind, hm]; rfl, rfl⟩

/-- Nothing fails, and the file is there and what its address serves: a hit or a comparison. -/
theorem play_there (T : Tools) (stamp : Text)
    (hb : w.files r.destination = some (upstream r.url)) (hne : upstream r.url ≠ []) :
    ∃ result v, play (perform T upstream stamp) (downloadCached r) w = (.ret result, v) ∧
      v.files r.destination = some (upstream r.url) := by
  obtain ⟨m, hm⟩ := play_ensureManifest T upstream stamp w
  rw [downloadCached, play_bind, hm]
  dsimp only
  generalize hw : ({ w with manifest := some m } : World) = v
  have hv : v.files r.destination = some (upstream r.url) := by rw [← hw]; exact hb
  -- the file is there, so it is compared with its entry or with what is served
  rw [play_holds, perform_nonempty hv, if_pos (by simp [hne]),
    play_capture (by rw [perform_sha256 hv]; rfl), perform_sha256 hv, manifestConfirms, play_holds]
  split
  · exact ⟨.hit, v, by rw [play_exec (by rfl)]; rfl, hv⟩
  · -- what is loaded once more is the same
    rw [play_exec (by rfl), play_exec (by rfl)]
    generalize hu : (perform T upstream stamp (.curl r.verifyPart r.url) _).2 = u
    have hpart : u.files r.verifyPart = some (upstream r.url) := by
      rw [← hu]
      exact World.put_self _ _ _
    have hdest : u.files r.destination = some (upstream r.url) := by
      rw [← hu]
      exact (World.put_of_ne r.destination_ne_verifyPart).trans hv
    rw [play_capture (by rw [perform_sha256 hpart]; rfl), perform_sha256 hpart,
      play_orDie (by simp), play_exec (by rfl)]
    obtain ⟨v', hplay, hfiles⟩ := play_finish
    refine ⟨.compared, v', hplay, ?_⟩
    rw [hfiles]
    exact (World.put_of_ne r.destination_ne_verifyPart).trans hdest

/-- Nothing fails, and there is no file: a download. -/
theorem play_missing (T : Tools) (stamp : Text)
    (hb : ∀ b, w.files r.destination = some b → b = [])
    (hne : upstream r.url ≠ []) :
    ∃ v, play (perform T upstream stamp) (downloadCached r) w = (.ret .downloaded, v) ∧
      v.files r.destination = some (upstream r.url) := by
  obtain ⟨m, hm⟩ := play_ensureManifest T upstream stamp w
  rw [downloadCached, play_bind, hm]
  dsimp only
  generalize hw : ({ w with manifest := some m } : World) = v
  have hv : ∀ b, v.files r.destination = some b → b = [] := by rw [← hw]; exact hb
  have hno : ¬ decide ((perform T upstream stamp (.nonempty r.destination) v).1.status = 0) =
      true := by
    cases hf : v.files r.destination with
    | none => simp [perform, hf]
    | some b => simp [perform, hf, hv b hf]
  rw [play_holds, if_neg hno, play_exec (by rfl), load, bind_assoc, play_exec (by rfl)]
  generalize hu : (perform T upstream stamp (.curl r.part r.url) _).2 = u
  have hpart : u.files r.part = some (upstream r.url) := by
    rw [← hu]
    exact World.put_self _ _ _
  rw [bind_assoc, play_require (by rw [perform_nonempty hpart]; simp [hne]), perform_nonempty hpart,
    play_exec (by rw [perform_mv hpart]; rfl), perform_mv hpart]
  have hdest := World.put_self (u.put r.part none) r.destination (some (upstream r.url))
  rw [play_capture (by rw [perform_sha256 hdest]; rfl), perform_sha256 hdest]
  obtain ⟨v', hplay, hfiles⟩ := play_finish
  exact ⟨v', hplay, by rw [hfiles]; exact hdest⟩

/-! ### The results -/

/-- **Every entry is true.**  After any runs of `download_cached`, each cut off anywhere and with
any failures, from a directory with any files and no manifest: the address of every entry has served
bytes with its digest, and no entry is there twice. -/
theorem manifest_sound (T : Tools) (w w' : World) (hm : w.manifest = none)
    (h : Sessions (Effect T) CachedRun w w') :
    (∀ e ∈ w'.entries, ∃ b, (e.url, b) ∈ w'.served ∧ e.sha256 = T.sha256 b) ∧ w'.entries.Nodup := by
  have hsound := sound_of_cachedRuns T (w.sound_of_none T hm) h
  exact ⟨hsound.served, hsound.nodup⟩

/-- **What `download_cached` accepts was served.**  When it returns after such runs, the address has
served bytes with the digest of the file; for a cache hit, with a digest that `awk` takes for the
same. -/
theorem accepted_served (T : Tools) (w w' w'' : World) (r : Request) (result : Result)
    (hm : w.manifest = none) (h : Sessions (Effect T) CachedRun w w')
    (hf : Finishes (Effect T) (downloadCached r) w' result w'') :
    ∃ b b', w''.files r.destination = some b ∧ (r.url, b') ∈ w''.served ∧
      (T.sha256 b' = T.sha256 b ∨
        result = .hit ∧ same T.number (T.sha256 b') (T.sha256 b) = true) := by
  have hsound := sound_of_cachedRuns T (w.sound_of_none T hm) h
  obtain ⟨-, -, haccepted⟩ := hf.post (downloadCached_advances hsound)
  cases result with
  | hit =>
    obtain ⟨b, b', hb, hb', hsame⟩ := haccepted
    exact ⟨b, b', hb, hb', Or.inr ⟨rfl, hsame⟩⟩
  | compared =>
    obtain ⟨b, b', hb, hb', hsame⟩ := haccepted
    exact ⟨b, b', hb, hb', Or.inl hsame⟩
  | downloaded =>
    obtain ⟨b, hb, hb'⟩ := haccepted
    exact ⟨b, b, hb, hb', Or.inl rfl⟩

/-- **Two programs, one manifest.**  From a directory without downloads, and when a file always
comes from one address, any runs of the two scripts leave a sound manifest, and every file is what
its address has served. -/
theorem shared_manifest_sound (T : Tools) (R : Set Request) (w w' : World)
    (hnames : ∀ r ∈ R, ∀ r' ∈ R, r.destination = r'.destination → r.url = r'.url)
    (hm : w.manifest = none) (hfiles : ∀ f, w.files f = none)
    (h : Sessions (Effect T) (SharedRun R) w w') :
    (∀ e ∈ w'.entries, ∃ b, (e.url, b) ∈ w'.served ∧ e.sha256 = T.sha256 b) ∧ w'.entries.Nodup ∧
      ∀ r ∈ R, ∀ b, w'.files r.destination = some b → (r.url, b) ∈ w'.served := by
  have hstart : Loaded T R w := by
    refine ⟨w.sound_of_none T hm, fun r _ b hb => ?_⟩
    rw [hfiles] at hb
    cases hb
  obtain ⟨hsound, hserved⟩ := loaded_of_sharedRuns hnames hstart h
  exact ⟨hsound.served, hsound.nodup, hserved⟩

/-- **No interrupted run stands in the way.**  After such runs, while every address serves the same
bytes, the run of `download_cached` in which nothing fails returns, whatever time the clock shows,
and leaves the file of its address. -/
theorem download_recovers (T : Tools) (upstream : Text → List UInt8) (R : Set Request)
    (w w' : World) (r : Request) (stamp : Text)
    (hnames : ∀ r ∈ R, ∀ r' ∈ R, r.destination = r'.destination → r.url = r'.url)
    (hm : w.manifest = none) (hfiles : ∀ f, w.files f = none)
    (h : Sessions (Effect T) (SharedRun R) w w')
    (hup : ∀ u b, (u, b) ∈ w'.served → b = upstream u) (hr : r ∈ R) (hne : upstream r.url ≠ [])
    (hstamp : IsStamp stamp) :
    ∃ result v, play (perform T upstream stamp) (downloadCached r) w' = (.ret result, v) ∧
      Finishes (Effect T) (downloadCached r) w' result v ∧
      v.files r.destination = some (upstream r.url) := by
  have hstart : Loaded T R w := by
    refine ⟨w.sound_of_none T hm, fun r _ b hb => ?_⟩
    rw [hfiles] at hb
    cases hb
  have hserved := (loaded_of_sharedRuns hnames hstart h).served r hr
  have hrun : ∀ result v, play (perform T upstream stamp) (downloadCached r) w' = (.ret result, v) →
      Finishes (Effect T) (downloadCached r) w' result v := by
    intro result v hplay
    have hfin := finishes_play (E := Effect T) (effect_perform hstamp)
      (show (play (perform T upstream stamp) (downloadCached r) w').1 = .ret result by rw [hplay])
    rwa [hplay] at hfin
  by_cases hthere : ∃ b, w'.files r.destination = some b ∧ b ≠ []
  · obtain ⟨b, hb, -⟩ := hthere
    have hb' := hup _ _ (hserved b hb)
    obtain ⟨result, v, hplay, hv⟩ := play_there T stamp (hb' ▸ hb) hne
    exact ⟨result, v, hplay, hrun _ _ hplay, hv⟩
  · obtain ⟨v, hplay, hv⟩ := play_missing T stamp
      (fun b hb => by_contra fun hne => hthere ⟨b, hb, hne⟩) hne
    exact ⟨.downloaded, v, hplay, hrun _ _ hplay, hv⟩

end Sessions

/-! ### One download after the other -/

/-- Digests of two contents. -/
def sampleTools : Tools where
  Number := Unit
  number _ := none
  number_colon _ _ := rfl
  sha256 b := if b = [1] then
    "4bf5122f344554c53bde2ebb8cd2b7e3d1600ad631c385a5d7cce23c7785459a".toList else
    "e3b0c44298fc1c149afbf4c8996fb92427ae41e4649b934ca495991b7852b855".toList
  sha256_hex b := by
    split
    · decide
    · decide

/-- The last update of Leopard. -/
def sampleRequest : Request where
  url := "https://updates.cdn-apple.com/a.dmg".toList
  destination := "downloads/a.dmg".toList
  source := "Apple 10.5.8 Combo Update".toList
  version := "10.5.8".toList
  url_field := ⟨by decide, by decide, by decide, by decide⟩
  url_colon := by decide
  filename_field := ⟨by decide, by decide, by decide, by decide⟩
  source_field := ⟨by decide, by decide, by decide, by decide⟩
  version_field := ⟨by decide, by decide, by decide, by decide⟩
  not_part := by decide

/-- An empty directory. -/
def emptyWorld : World := ⟨fun _ => none, none, []⟩

/-- The time of the runs. -/
def sampleStamp : Text := "2026-01-02T03:04:05Z".toList

theorem isStamp_sample : IsStamp sampleStamp :=
  ⟨by decide, by decide, fun c t h => by cases h; decide⟩

/-- What is done when nothing fails, and every address serves one byte. -/
def sampleStep : Cmd → World → Reply × World := perform sampleTools (fun _ => [1]) sampleStamp

theorem effect_sample (l : List (Cmd × Reply)) (c : Cmd) (w : World) :
    Effect sampleTools l c (sampleStep c w).1 w (sampleStep c w).2 :=
  effect_perform isStamp_sample l c w

/-- A run of `download_cached` in which nothing fails. -/
def sampleRun (w : World) : Script.Outcome Result × World :=
  play sampleStep (downloadCached sampleRequest) w

/-- A run of `download_cached` that is killed when the file is there and its entry is not. -/
def killedWorld : World := cut sampleStep (downloadCached sampleRequest) 7 emptyWorld

/-- A run of the selector that is killed when the file is there and no manifest. -/
def selectorWorld : World := cut sampleStep (selectDownload sampleRequest) 6 emptyWorld

/-- The directory after the killed run and another one. -/
def sampleWorld : World := (sampleRun killedWorld).2

/-- The directory after the killed selector and a run of `download_cached`. -/
def sharedWorld : World := (sampleRun selectorWorld).2

theorem sessions_sample : Sessions (Effect sampleTools) CachedRun emptyWorld sampleWorld :=
  ((Sessions.refl _).tail ⟨sampleRequest, rfl⟩ (session_cut effect_sample _ 7 _)).tail
    ⟨sampleRequest, rfl⟩ (session_play effect_sample _ _)

theorem selector_sample :
    Sessions (Effect sampleTools) (SharedRun (Set.singleton sampleRequest)) emptyWorld
      selectorWorld :=
  (Sessions.refl _).tail ⟨sampleRequest, rfl, Or.inr rfl⟩ (session_cut effect_sample _ 6 _)

theorem shared_sample :
    Sessions (Effect sampleTools) (SharedRun (Set.singleton sampleRequest)) emptyWorld
      sharedWorld :=
  selector_sample.tail ⟨sampleRequest, rfl, Or.inl rfl⟩ (session_play effect_sample _ _)

/-- The killed run leaves a file without an entry; the next one compares it and makes the entry, and
the third one is a hit. -/
theorem sample_runs : killedWorld.entries = [] ∧
    killedWorld.files sampleRequest.destination = some [1] ∧
    sampleWorld.entries = [sampleRequest.entry (sampleTools.sha256 [1])] ∧
    (sampleRun sampleWorld).1 = .ret .hit := by decide +kernel

/-- The killed selector leaves a file and no manifest; `download_cached` makes the entry. -/
theorem shared_runs : selectorWorld.manifest = none ∧
    selectorWorld.files sampleRequest.destination = some [1] ∧
    selectorWorld.served = [(sampleRequest.url, [1])] ∧
    sharedWorld.entries = [sampleRequest.entry (sampleTools.sha256 [1])] := by decide +kernel

/-- A killed run, another one, and the entry. -/
theorem manifest_sound_sample :
    sampleWorld.entries = [sampleRequest.entry (sampleTools.sha256 [1])] ∧
      (∀ e ∈ sampleWorld.entries, ∃ b, (e.url, b) ∈ sampleWorld.served ∧
        e.sha256 = sampleTools.sha256 b) ∧ sampleWorld.entries.Nodup :=
  ⟨sample_runs.2.2.1, manifest_sound sampleTools emptyWorld sampleWorld rfl sessions_sample⟩

/-- The run after these two is a hit. -/
theorem accepted_served_sample :
    (sampleRun sampleWorld).1 = .ret .hit ∧
      ∃ b b', (sampleRun sampleWorld).2.files sampleRequest.destination = some b ∧
        (sampleRequest.url, b') ∈ (sampleRun sampleWorld).2.served ∧
        (sampleTools.sha256 b' = sampleTools.sha256 b ∨
          Result.hit = .hit ∧
            same sampleTools.number (sampleTools.sha256 b') (sampleTools.sha256 b) = true) :=
  have hhit := sample_runs.2.2.2
  ⟨hhit, accepted_served sampleTools emptyWorld sampleWorld _ sampleRequest .hit rfl sessions_sample
    (finishes_play effect_sample hhit)⟩

theorem names_sample : ∀ r ∈ Set.singleton sampleRequest, ∀ r' ∈ Set.singleton sampleRequest,
    r.destination = r'.destination → r.url = r'.url := by
  rintro _ rfl _ rfl _
  rfl

/-- A killed selector, and then `download_cached`. -/
theorem shared_manifest_sound_sample :
    sharedWorld.entries = [sampleRequest.entry (sampleTools.sha256 [1])] ∧
      (∀ e ∈ sharedWorld.entries, ∃ b, (e.url, b) ∈ sharedWorld.served ∧
        e.sha256 = sampleTools.sha256 b) ∧ sharedWorld.entries.Nodup ∧
      ∀ r ∈ Set.singleton sampleRequest, ∀ b, sharedWorld.files r.destination = some b →
        (r.url, b) ∈ sharedWorld.served :=
  ⟨shared_runs.2.2.2, shared_manifest_sound sampleTools (Set.singleton sampleRequest) emptyWorld
    sharedWorld names_sample rfl (fun _ => rfl) shared_sample⟩

/-- After the killed selector. -/
theorem download_recovers_sample :
    selectorWorld.manifest = none ∧ ∃ result v,
      play sampleStep (downloadCached sampleRequest) selectorWorld = (.ret result, v) ∧
      Finishes (Effect sampleTools) (downloadCached sampleRequest) selectorWorld result v ∧
      v.files sampleRequest.destination = some [1] := by
  refine ⟨shared_runs.1, download_recovers sampleTools (fun _ => [1]) (Set.singleton sampleRequest)
    emptyWorld selectorWorld sampleRequest sampleStamp names_sample rfl (fun _ => rfl)
    selector_sample ?_ rfl (by decide) isStamp_sample⟩
  intro u b hub
  rw [shared_runs.2.2.1, List.mem_singleton] at hub
  exact congrArg Prod.snd hub

end Cache

end InstallKit
