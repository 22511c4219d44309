import InstallKit.Shell.Statements
import InstallKit.Sources.CurrentSources

/-!
# Extracted archives

A cache directory is taken for complete when one path is in it.  OpenCore is extracted beside its
place and renamed, by both programs; the two differ in what they do with a directory that an earlier
run has left there.  The legacy kexts are extracted in the temporary directory, which may be on
another file system, and what is a rename on one file system is a copy between two.

Every command may fail and every run may be cut off; a command that extracts or copies leaves any
part of its work behind.

* `openCore_complete` : after any runs, a cache directory of OpenCore is what some archive holds.
* `staging_blocks` : a directory left beside it (`AnyRuns.blocked`) stops `extract_zip_once` for
  good, and changes nothing.
* `selector_clears` : the selector extracts the archive all the same.
* `legacy_complete_iff` : a cache of the legacy kexts is complete after any runs exactly when the
  temporary directory is on its file system.
-/

namespace InstallKit

namespace Cache

namespace Extraction

open Sources Shell Stmt

/-! ### The world -/

/-- What a path leads to. -/
inductive Node
  | dir
  | file (content : List UInt8)
  deriving DecidableEq

/-- What is in a directory, by relative paths. -/
abbrev Tree := Text → Option Node

/-- A release of OpenCore; its directory is not inside that of another one. -/
structure Release where
  version : Text
  variant : Variant
  no_slash : '/' ∉ version
  deriving DecidableEq

/-- The archives. -/
inductive Archive
  /-- `OpenCore-<version>-<variant>.zip` -/
  | openCore (k : Release)
  /-- `Legacy-Kexts-<commit>.zip` -/
  | legacy (commit : Text)
  deriving DecidableEq

/-- The directories. -/
inductive Place
  /-- `cache/opencore/<version>/<variant>` -/
  | openCore (k : Release)
  /-- The same with `.extracting`. -/
  | staging (k : Release)
  /-- `cache/legacy-kexts/<commit>` -/
  | legacy (commit : Text)
  /-- `$TEMP_DIR/legacy-extract` -/
  | temp
  deriving DecidableEq

structure World where
  archives : Archive → Option (List UInt8)
  trees : Place → Option Tree

/-- One directory has become another one, or is gone. -/
def World.put (w : World) (p : Place) (t : Option Tree) : World :=
  { w with trees := fun q => if q = p then t else w.trees q }

@[simp] theorem World.put_self (w : World) (p : Place) (t : Option Tree) :
    (w.put p t).trees p = t := if_pos rfl

theorem World.put_of_ne {w : World} {p q : Place} {t : Option Tree} (h : q ≠ p) :
    (w.put p t).trees q = w.trees q := if_neg h

@[simp] theorem World.put_archives (w : World) (p : Place) (t : Option Tree) :
    (w.put p t).archives = w.archives := rfl

/-- An empty directory. -/
def emptyTree : Tree := fun _ => none

/-- `t` is extracted over what is there. -/
def overlay (old t : Tree) : Tree := fun p => (t p).or (old p)

@[simp] theorem overlay_empty (t : Tree) : overlay emptyTree t = t := by
  funext p
  simp [overlay, emptyTree]

/-- The directory `top` of a tree. -/
def Tree.sub (t : Tree) (top : Text) : Tree := fun p => t (top ++ '/' :: p)

/-- The programs that extract. -/
inductive Tool
  | ditto | unzip | zipfile
  deriving DecidableEq

/-- The tests `[[ -e p ]]`, `[[ -f p ]]`, `[[ -d p ]]`. -/
inductive Test
  | e | f | d
  deriving DecidableEq

/-- The test accepts what is there. -/
def Test.accepts : Test → Option Node → Bool
  | .e, n => n.isSome
  | .f, some (.file _) => true
  | .d, some .dir => true
  | _, _ => false

/-- What `$p/rel` leads to. -/
def World.node (w : World) (p : Place) (rel : Text) : Option Node :=
  if rel = [] then (w.trees p).map fun _ => .dir else (w.trees p).bind fun t => t rel

/-- The commands of the two programs. -/
inductive Cmd
  /-- A command that changes none of the directories. -/
  | run (line : String)
  /-- `TEMP_DIR="$(mktemp -d ...)"` -/
  | mktemp
  /-- The download of an archive. -/
  | download (a : Archive)
  /-- `[[ -t "$p/rel" ]]` -/
  | test (t : Test) (p : Place) (rel : Text)
  /-- `have_cmd tool` -/
  | has (tool : Tool)
  /-- `mkdir -p p` -/
  | mkdir (p : Place)
  /-- `ditto -x -k a p`, `unzip -q a -d p`, `python3 -m zipfile -e a p` -/
  | unpack (tool : Tool) (a : Archive) (p : Place)
  /-- `rm -rf -- p` -/
  | rm (p : Place)
  /-- `mv -- p q` -/
  | mv (p q : Place)
  /-- `find "$TEMP_DIR/legacy-extract" -mindepth 1 -maxdepth 1 -type d -print -quit` -/
  | findTop
  /-- `mv -- "$legacy_top" p` -/
  | mvTop (top : Text) (p : Place)

/-- What is relied on of the programs that extract and of the downloads, and where the temporary
directory is. -/
structure Env where
  /-- What is in an archive, if it is one. -/
  content : Tool → List UInt8 → Option Tree
  /-- A server has sent these bytes for the archive. -/
  served : Archive → List UInt8 → Prop
  /-- The temporary directory is on the file system of the cache. -/
  sameFs : Bool

/-- What is at `q` when `t` has been renamed to it: a directory that is there takes it in. -/
def Renamed (w : World) (q : Place) (t t' : Tree) : Prop := w.trees q = none → t' = t

/-- What a command with this reply may do.  Tests answer truthfully. -/
def Effect (env : Env) (_ : List (Cmd × Reply)) : Cmd → Reply → World → World → Prop
  | .run _, _, w, w' => w' = w
  | .mktemp, r, w, w' => if r.status = 0 then w' = w.put .temp none else w' = w
  -- an archive is downloaded beside its place and renamed
  | .download a, _, w, w' => w'.trees = w.trees ∧ ∀ a' b, w'.archives a' = some b →
    w.archives a' = some b ∨ a' = a ∧ env.served a b
  | .test t p rel, r, w, w' => w' = w ∧ (r.status = 0 ↔ t.accepts (w.node p rel) = true)
  | .has _, _, w, w' => w' = w
  | .mkdir p, r, w, w' =>
    w' = w ∧ (r.status = 0 → w.trees p ≠ none) ∨ w.trees p = none ∧ w' = w.put p (some emptyTree)
  | .unpack tool a p, r, w, w' =>
    if r.status = 0 then ∃ b t, w.archives a = some b ∧ env.content tool b = some t ∧
      w' = w.put p (some (overlay ((w.trees p).getD emptyTree) t))
    else w' = w ∨ ∃ t, w' = w.put p (some t)
  | .rm p, r, w, w' => if r.status = 0 then w' = w.put p none else ∃ t, w' = w.put p t
  | .mv p q, r, w, w' => r.status ≠ 0 ∧ w' = w ∨ ∃ t t', w.trees p = some t ∧ Renamed w q t t' ∧
    w' = (w.put p none).put q (some t')
  | .findTop, r, w, w' => w' = w ∧ (r.status = 0 → r.out ≠ [] → w.node .temp r.out = some .dir)
  | .mvTop top q, r, w, w' => r.status ≠ 0 ∧ w' = w ∨ ∃ t t' rest, w.trees .temp = some t ∧
    -- between two file systems it is a copy, which may be cut off
    (r.status = 0 ∨ env.sameFs = true → Renamed w q (t.sub top) t') ∧
    w' = (w.put .temp (some rest)).put q (some t')

/-! ### The scripts -/

abbrev Sh := Script Unit Cmd Reply

/-- `Docs/Sample.plist` -/
def sample : Text :=
  ['D', 'o', 'c', 's', '/', 'S', 'a', 'm', 'p', 'l', 'e', '.', 'p', 'l', 'i', 's', 't']

theorem sample_ne_nil : sample ≠ [] := List.cons_ne_nil _ _

/-- `FAT` -/
def fat : Text := ['F', 'A', 'T']

theorem fat_ne_nil : fat ≠ [] := List.cons_ne_nil _ _

/-- The choice of a program in `extract_zip_once`. -/
def unpackAny (a : Archive) (p : Place) : Sh Unit := do
  if ← holds (.has .ditto) then
    exec (.unpack .ditto a p)
  else if ← holds (.has .unzip) then
    exec (.unpack .unzip a p)
  else
    exec (.unpack .zipfile a p)

/-- The choice of the selector. -/
def unpackZip (a : Archive) (p : Place) : Sh Unit := do
  if ← holds (.has .unzip) then
    exec (.unpack .unzip a p)
  else
    require (.run "have python3") "unzip or python3 is required"
    exec (.unpack .zipfile a p)

/-- The choice for the legacy kexts. -/
def unpackDitto (a : Archive) (p : Place) : Sh Unit := do
  if ← holds (.has .ditto) then
    exec (.unpack .ditto a p)
  else
    exec (.unpack .unzip a p)

/-- `[[ ! -e p ]] || die msg` -/
def absent (p : Place) (msg : String) : Sh Unit := do
  orDie (!(← holds (.test .e p []))) msg

/-- `extract_zip_once` -/
def extractZipOnce (k : Release) : Sh Unit := do
  if ← holds (.test .e (.openCore k) sample) then return
  absent (.openCore k) "Incomplete cache exists; preserve and inspect manually: $destination"
  absent (.staging k) "Stale extraction directory exists: $staging"
  exec (.mkdir (.staging k))
  unpackAny (.openCore k) (.staging k)
  require (.test .e (.staging k) sample) "Archive did not contain $required_marker: $archive"
  exec (.mv (.staging k) (.openCore k))

/-- `extract_archive` of the selector -/
def extractArchive (k : Release) : Sh Unit := do
  if ← holds (.test .f (.openCore k) sample) then return
  absent (.openCore k) "Incomplete OpenCore cache exists: $cache_root"
  exec (.rm (.staging k))
  exec (.mkdir (.staging k))
  unpackZip (.openCore k) (.staging k)
  require (.test .f (.staging k) sample) "OpenCore archive lacks Docs/Sample.plist"
  exec (.run "mkdir -p \"$(dirname \"$cache_root\")\"")
  exec (.mv (.staging k) (.openCore k))

/-- The legacy kexts in `run_download` -/
def extractLegacy (commit : Text) : Sh Unit := do
  if !(← holds (.test .d (.legacy commit) fat)) then
    absent (.legacy commit) "Incomplete legacy kext cache exists: $legacy_cache"
    exec (.mkdir .temp)
    unpackDitto (.legacy commit) .temp
    let top ← capture .findTop
    orDie (top ≠ []) "Legacy-Kexts archive structure is unexpected."
    require (.test .d .temp (top ++ '/' :: fat)) "Legacy-Kexts archive structure is unexpected."
    exec (.run "mkdir -p \"$(dirname \"$legacy_cache\")\"")
    exec (.mvTop top (.legacy commit))

/-- `validate_cache`: the files, and what is said where one is missing. -/
def validated : List (Text × String) :=
  [(sample, "OpenCore cache incomplete: $root"),
    ("IA32/EFI/OC/OpenCore.efi".toList, "OpenCore $version $variant has no IA32 OpenCore.efi"),
    ("IA32/EFI/BOOT/BOOTIA32.efi".toList, "OpenCore $version $variant has no BOOTIA32.efi"),
    ("Utilities/LegacyBoot/bootIA32".toList,
      "OpenCore $version $variant has no LegacyBoot/bootIA32"),
    ("Utilities/LegacyBoot/boot0".toList, "OpenCore $version $variant has no LegacyBoot/boot0"),
    ("Utilities/LegacyBoot/boot1f32".toList,
      "OpenCore $version $variant has no LegacyBoot/boot1f32")]

/-- `validate_cache` -/
def validateCache (k : Release) : Sh Unit :=
  forM validated fun f => require (.test .f (.openCore k) f.1) f.2

/-- `run_download`, for the releases that it finds. -/
def runDownload (k : Release) (commit : Text) : Sh Unit := do
  exec .mktemp
  exec (.download (.openCore k))
  extractZipOnce k
  require (.test .d (.openCore k) "Utilities/LegacyBoot".toList)
    "OpenCore $oc_version lacks required LegacyBoot/ocvalidate components."
  require (.test .f (.openCore k) "Utilities/ocvalidate/ocvalidate".toList)
    "OpenCore $oc_version lacks required LegacyBoot/ocvalidate components."
  exec (.download (.legacy commit))
  extractLegacy commit
  exec (.run "cat >\"$CURRENT_SOURCES\"")

/-- `select_opencore_release.sh --download`, for the release that it finds. -/
def selectDownload (k : Release) : Sh Unit := do
  exec (.download (.openCore k))
  extractArchive k
  validateCache k
  -- `select_cache`
  validateCache k
  require (.run "[[ -f \"$CURRENT_SOURCES\" ]]") ("Missing $CURRENT_SOURCES. Run the normal " ++
    "--download once so kext/HFS metadata exists.")
  require (.run "have python3") "python3 is required"
  exec (.run "python3 - \"$CURRENT_SOURCES\"")

/-! ### What counts as complete -/

section

variable {env : Env} {k : Release} {a : Archive} {commit top rel : Text} {w v v' : World}
  {t t' : Tree} {l : List (Cmd × Reply)} {tool : Tool} {p q : Place} {I : World → Prop}
  {msg : String}

/-- The tree is what an archive holds that a server has sent. -/
def Complete (env : Env) (a : Archive) (t : Tree) : Prop :=
  ∃ tool b, env.served a b ∧ env.content tool b = some t

/-- The tree is a directory of such an archive. -/
def LegacyComplete (env : Env) (commit : Text) (t : Tree) : Prop :=
  ∃ t' top, Complete env (.legacy commit) t' ∧ t = t'.sub top

/-- Every archive was sent by a server, and every cache is complete. -/
structure Sound (env : Env) (w : World) : Prop where
  served : ∀ a b, w.archives a = some b → env.served a b
  openCore : ∀ k t, w.trees (.openCore k) = some t → Complete env (.openCore k) t
  legacy : env.sameFs = true → ∀ commit t, w.trees (.legacy commit) = some t →
    LegacyComplete env commit t

/-- What `load_current_sources` asks of the cache. -/
def loadCurrentSources (w : World) (k : Release) (commit : Text) : Bool :=
  Test.f.accepts (w.node (.openCore k) sample) && Test.d.accepts (w.node (.legacy commit) fat)

theorem node_eq_none (h : w.node p [] = none) : w.trees p = none := by
  rw [World.node, if_pos rfl, Option.map_eq_none_iff] at h
  exact h

/-- What is done beside the caches. -/
theorem Sound.put (h : Sound env w) (hp : (∀ k, p ≠ .openCore k) ∧ ∀ c, p ≠ .legacy c)
    (t : Option Tree) : Sound env (w.put p t) where
  served := h.served
  openCore k := by
    rw [World.put_of_ne (hp.1 k).symm]
    exact h.openCore k
  legacy hfs c := by
    rw [World.put_of_ne (hp.2 c).symm]
    exact h.legacy hfs c

theorem Sound.staging (h : Sound env w) (k : Release) (t : Option Tree) :
    Sound env (w.put (.staging k) t) := h.put ⟨by simp, by simp⟩ t

theorem Sound.temp (h : Sound env w) (t : Option Tree) : Sound env (w.put .temp t) :=
  h.put ⟨by simp, by simp⟩ t

theorem Sound.download (h : Sound env w) (ht : v.trees = w.trees)
    (ha : ∀ a' b, v.archives a' = some b → w.archives a' = some b ∨ a' = a ∧ env.served a b) :
    Sound env v where
  served a' b hb := by
    obtain hold | ⟨rfl, hnew⟩ := ha a' b hb
    · exact h.served a' b hold
    · exact hnew
  openCore k t hk := h.openCore k t (ht ▸ hk)
  legacy hfs c t hc := h.legacy hfs c t (ht ▸ hc)

/-! ### What the commands do -/

/-- `[[ ! -e p ]] || die` -/
theorem ensures_absent (hI : I w) : Ensures (Effect env) (fun _ => I) (absent p msg)
    (fun _ _ v => v = w ∧ w.trees p = none) l w := by
  rw [absent, ensures_bind, ensures_holds]
  refine ⟨hI, ?_⟩
  rintro r w ⟨rfl, htest⟩
  refine ⟨hI, ?_⟩
  rw [ensures_orDie]
  refine ⟨hI, fun hr => ⟨rfl, ?_⟩⟩
  cases hn : w.node p [] with
  | none => exact node_eq_none hn
  | some n =>
    have hzero : r.status = 0 := htest.2 (by rw [hn]; rfl)
    simp [hzero] at hr

/-- `[[ -t "$p/rel" ]] || die` -/
theorem ensures_test {t : Test} (hI : I w) : Ensures (Effect env) (fun _ => I)
    (require (.test t p rel) msg : Sh Unit)
    (fun _ _ v => v = w ∧ t.accepts (w.node p rel) = true) l w := by
  rw [ensures_require]
  refine ⟨hI, ?_⟩
  rintro r w ⟨rfl, htest⟩
  exact ⟨hI, fun hr => ⟨rfl, htest.1 hr⟩⟩

/-- A command that is only run. -/
theorem ensures_run {line : String} (hI : I w) : Ensures (Effect env) (fun _ => I)
    (exec (.run line) : Sh Unit) (fun _ _ v => v = w) l w := by
  rw [ensures_exec]
  refine ⟨hI, ?_⟩
  rintro r w rfl
  exact ⟨hI, fun _ => rfl⟩

theorem ensures_mkdir (hI : I w) (hput : I (w.put p (some emptyTree)))
    (hnone : w.trees p = none) : Ensures (Effect env) (fun _ => I) (exec (.mkdir p) : Sh Unit)
    (fun _ _ v => v = w.put p (some emptyTree)) l w := by
  rw [ensures_exec]
  refine ⟨hI, fun r v hE => ?_⟩
  obtain ⟨rfl, hthere⟩ | ⟨-, rfl⟩ := hE
  · exact ⟨hI, fun hr => absurd hnone (hthere hr)⟩
  · exact ⟨hput, fun _ => rfl⟩

/-- What has been extracted from the archive that is there. -/
def Extracted (env : Env) (w : World) (a : Archive) (t : Tree) : Prop :=
  ∃ tool b, w.archives a = some b ∧ env.content tool b = some t

theorem Extracted.complete (h : Extracted env w a t) (hw : Sound env w) : Complete env a t := by
  obtain ⟨tool, b, hb, ht⟩ := h
  exact ⟨tool, b, hw.served a b hb, ht⟩

/-- An archive is extracted into an empty directory. -/
theorem ensures_unpack (hI : I w) (hput : ∀ t, I (w.put p (some t)))
    (hempty : w.trees p = some emptyTree) : Ensures (Effect env) (fun _ => I)
    (exec (.unpack tool a p) : Sh Unit)
    (fun _ _ v => ∃ t, Extracted env w a t ∧ v = w.put p (some t)) l w := by
  rw [ensures_exec]
  refine ⟨hI, fun r w' hE => ?_⟩
  by_cases hr : r.status = 0
  · rw [Effect, if_pos hr, hempty, Option.getD_some] at hE
    obtain ⟨b, t, hb, ht, rfl⟩ := hE
    rw [overlay_empty]
    exact ⟨hput t, fun _ => ⟨t, ⟨tool, b, hb, ht⟩, rfl⟩⟩
  · rw [Effect, if_neg hr] at hE
    obtain rfl | ⟨t, rfl⟩ := hE
    · exact ⟨hI, fun h0 => absurd h0 hr⟩
    · exact ⟨hput t, fun h0 => absurd h0 hr⟩

/-- Looking for a program changes nothing. -/
theorem ensures_have {c : Cmd} {f : Bool → Sh Unit} {Q : Unit → List (Cmd × Reply) → World → Prop}
    (hc : ∀ l r w w', Effect env l c r w w' → w' = w) (hI : I w)
    (hf : ∀ b l, Ensures (Effect env) (fun _ => I) (f b) Q l w) :
    Ensures (Effect env) (fun _ => I) (holds c >>= f) Q l w := by
  rw [ensures_bind, ensures_holds]
  refine ⟨hI, fun r w' hE => ?_⟩
  obtain rfl := hc _ _ _ _ hE
  exact ⟨hI, hf _ _⟩

/-- Whichever program is there. -/
theorem ensures_unpacks (hI : I w) (hput : ∀ t, I (w.put p (some t)))
    (hempty : w.trees p = some emptyTree) {f : Archive → Place → Sh Unit}
    (hf : f = unpackAny ∨ f = unpackZip ∨ f = unpackDitto) :
    Ensures (Effect env) (fun _ => I) (f a p)
      (fun _ _ v => ∃ t, Extracted env w a t ∧ v = w.put p (some t)) l w := by
  have hunpack : ∀ tool l, Ensures (Effect env) (fun _ => I) (exec (.unpack tool a p) : Sh Unit)
      (fun _ _ v => ∃ t, Extracted env w a t ∧ v = w.put p (some t)) l w :=
    fun tool l => ensures_unpack hI hput hempty
  -- whichever tool is found, one command fills the directory
  obtain rfl | rfl | rfl := hf
  · refine ensures_have (fun _ _ _ _ h => h) hI fun b l => ?_
    split
    · exact hunpack _ _
    · refine ensures_have (fun _ _ _ _ h => h) hI fun b l => ?_
      split
      · exact hunpack _ _
      · exact hunpack _ _
  · refine ensures_have (fun _ _ _ _ h => h) hI fun b l => ?_
    split
    · exact hunpack _ _
    · rw [ensures_bind, ensures_require]
      refine ⟨hI, ?_⟩
      rintro r _ rfl
      exact ⟨hI, fun _ => hunpack _ _⟩
  · refine ensures_have (fun _ _ _ _ h => h) hI fun b l => ?_
    split
    · exact hunpack _ _
    · exact hunpack _ _

/-! ### One run -/

/-- No directory is beside the cache. -/
def Alone (k : Release) (w : World) : Prop :=
  w.trees (.openCore k) = none ∨ w.trees (.staging k) = none

theorem Alone.congr (hc : v.trees (.openCore k) = w.trees (.openCore k))
    (hs : v.trees (.staging k) = w.trees (.staging k)) (hw : Alone k w) : Alone k v := by
  rw [Alone, hc, hs]
  exact hw

/-- A run has published what the archive holds that was there, or nothing; what it has left beside
the cache is there without a cache. -/
structure Publishes (env : Env) (k : Release) (w v : World) : Prop where
  archives : v.archives = w.archives
  frame : ∀ p, p ≠ .openCore k → p ≠ .staging k → v.trees p = w.trees p
  cache : v.trees (.openCore k) = w.trees (.openCore k) ∨
    ∃ t, v.trees (.openCore k) = some t ∧ Extracted env w (.openCore k) t
  alone : Alone k w → Alone k v

theorem Publishes.refl (env : Env) (k : Release) (w : World) : Publishes env k w w :=
  ⟨rfl, fun _ _ _ => rfl, Or.inl rfl, fun h => h⟩

/-- What is done beside the cache, while there is none. -/
theorem Publishes.staging (h : Publishes env k w v) (hnone : v.trees (.openCore k) = none)
    (t : Option Tree) :
    Publishes env k w (v.put (.staging k) t) where
  archives := h.archives
  frame p hc hs := by
    rw [World.put_of_ne hs]
    exact h.frame p hc hs
  cache := by
    rw [World.put_of_ne (by simp)]
    exact h.cache
  alone _ := Or.inl (by rw [World.put_of_ne (by simp), hnone])

theorem Publishes.moved (h : Publishes env k w v) (ht : Extracted env w (.openCore k) t) :
    Publishes env k w ((v.put (.staging k) none).put (.openCore k) (some t)) where
  archives := h.archives
  frame p hc hs := by
    rw [World.put_of_ne hc, World.put_of_ne hs]
    exact h.frame p hc hs
  cache := Or.inr ⟨t, World.put_self _ _ _, ht⟩
  alone _ := Or.inr (by rw [World.put_of_ne (by simp), World.put_self])

theorem Publishes.alone_of_alone {k' : Release} (h : Publishes env k w v) (hw : Alone k' w) :
    Alone k' v := by
  by_cases hk : k' = k
  · subst hk
    exact h.alone hw
  · exact hw.congr (h.frame _ (fun he => hk (Place.openCore.inj he)) (by simp))
      (h.frame _ (by simp) fun he => hk (Place.staging.inj he))

theorem Publishes.sound (h : Publishes env k w v) (hw : Sound env w) : Sound env v where
  served := h.archives ▸ hw.served
  openCore k' t hk := by
    by_cases hkk : k' = k
    · subst hkk
      obtain hsame | ⟨t', ht', hE⟩ := h.cache
      · exact hw.openCore k' t (hsame ▸ hk)
      · obtain rfl : t' = t := Option.some.inj (ht'.symm.trans hk)
        exact hE.complete hw
    · rw [h.frame _ (fun he => hkk (Place.openCore.inj he)) (by simp)] at hk
      exact hw.openCore k' t hk
  legacy hfs c t hc := by
    rw [h.frame _ (by simp) (by simp)] at hc
    exact hw.legacy hfs c t hc

/-- The directory beside the cache becomes the cache. -/
theorem ensures_publish (h : Publishes env k w v) (hnone : v.trees (.openCore k) = none)
    (ht : v.trees (.staging k) = some t) (hE : Extracted env w (.openCore k) t) :
    Ensures (Effect env) (fun _ => Publishes env k w)
      (exec (.mv (.staging k) (.openCore k)) : Sh Unit) (fun _ _ => Publishes env k w) l v := by
  rw [ensures_exec]
  refine ⟨h, fun r w' hmv => ?_⟩
  obtain ⟨hr, rfl⟩ | ⟨t₁, t₂, ht₁, hnew, rfl⟩ := hmv
  · exact ⟨h, fun h0 => absurd h0 hr⟩
  · obtain rfl : t = t₁ := Option.some.inj (ht.symm.trans ht₁)
    obtain rfl := hnew hnone
    exact ⟨h.moved hE, fun _ => h.moved hE⟩

/-- The part that both programs have: an archive is extracted into a directory that is not there;
what follows sees the whole tree in it. -/
theorem ensures_staged (h : Publishes env k w v) (hcache : v.trees (.openCore k) = none)
    (hstaging : v.trees (.staging k) = none) {f : Archive → Place → Sh Unit}
    (hf : f = unpackAny ∨ f = unpackZip ∨ f = unpackDitto) {rest : Sh Unit}
    (hrest : ∀ v t l, Publishes env k w v → v.trees (.openCore k) = none →
      v.trees (.staging k) = some t → Extracted env w (.openCore k) t →
      Ensures (Effect env) (fun _ => Publishes env k w) rest (fun _ _ => Publishes env k w) l v) :
    Ensures (Effect env) (fun _ => Publishes env k w)
      (do
        exec (.mkdir (.staging k))
        f (.openCore k) (.staging k)
        rest)
      (fun _ _ => Publishes env k w) l v := by
  rw [ensures_bind]
  have h₁ := h.staging hcache (some emptyTree)
  have hcache₁ : (v.put (.staging k) (some emptyTree)).trees (.openCore k) = none := by
    rw [World.put_of_ne (by simp), hcache]
  refine (ensures_mkdir h h₁ hstaging).imp ?_
  rintro _ l _ rfl
  rw [ensures_bind]
  have hput := fun t => h₁.staging hcache₁ (some t)
  refine (ensures_unpacks h₁ hput (World.put_self _ _ _) hf).imp ?_
  rintro _ l _ ⟨t, ⟨tool, b, hb, ht⟩, rfl⟩
  refine hrest _ t l (hput t) ?_ (World.put_self _ _ _)
    ⟨tool, b, h.archives ▸ hb, ht⟩
  rw [World.put_of_ne (by simp), hcache₁]

/-- **A run of `extract_zip_once`**, wherever it is cut off. -/
theorem extractZipOnce_publishes :
    Ensures (Effect env) (fun _ => Publishes env k w) (extractZipOnce k)
      (fun _ _ => Publishes env k w) l w := by
  have h := Publishes.refl env k w
  refine ensures_have (fun _ _ _ _ hE => hE.1) h fun b l => ?_
  cases b with
  | true => exact ⟨h, h⟩
  | false =>
    show Ensures _ _ (absent _ _ >>= fun _ => absent _ _ >>= fun _ => _) _ _ _
    rw [ensures_bind]
    refine (ensures_absent h).imp ?_
    rintro _ l w ⟨rfl, hcache⟩
    rw [ensures_bind]
    refine (ensures_absent h).imp ?_
    rintro _ l w ⟨rfl, hstaging⟩
    refine ensures_staged h hcache hstaging (Or.inl rfl) fun v t l hv hnone ht hE => ?_
    rw [ensures_bind]
    refine (ensures_test hv).imp ?_
    rintro _ l v ⟨rfl, -⟩
    exact ensures_publish hv hnone ht hE

/-- **A run of `extract_archive`**, wherever it is cut off. -/
theorem extractArchive_publishes :
    Ensures (Effect env) (fun _ => Publishes env k w) (extractArchive k)
      (fun _ _ => Publishes env k w) l w := by
  have h := Publishes.refl env k w
  refine ensures_have (fun _ _ _ _ hE => hE.1) h fun b l => ?_
  cases b with
  | true => exact ⟨h, h⟩
  | false =>
    show Ensures _ _ (absent _ _ >>= fun _ => exec _ >>= fun _ => _) _ _ _
    rw [ensures_bind]
    refine (ensures_absent h).imp ?_
    rintro _ l w ⟨rfl, hcache⟩
    rw [ensures_bind, ensures_exec]
    refine ⟨h, fun r v hE => ?_⟩
    -- the staging directory of an earlier run is removed, or the run ends here
    by_cases hr : r.status = 0
    · rw [Effect, if_pos hr] at hE
      subst hE
      have h₁ := h.staging hcache none
      refine ⟨h₁, fun _ => ?_⟩
      have hcache₁ : (w.put (.staging k) none).trees (.openCore k) = none := by
        rw [World.put_of_ne (by simp), hcache]
      refine ensures_staged h₁ hcache₁ (World.put_self _ _ _) (Or.inr (Or.inl rfl))
        fun v t l hv hnone ht hE => ?_
      rw [ensures_bind]
      refine (ensures_test hv).imp ?_
      rintro _ l v ⟨rfl, -⟩
      rw [ensures_bind]
      refine (ensures_run hv).imp ?_
      rintro _ l v rfl
      -- only a complete tree is moved
      exact ensures_publish hv hnone ht hE
    · rw [Effect, if_neg hr] at hE
      obtain ⟨t, rfl⟩ := hE
      exact ⟨h.staging hcache t, fun h0 => absurd h0 hr⟩

/-- A run has published a directory of the archive that was there, or nothing.  Between two file
systems, it may be a part of one. -/
structure LegacyPublishes (env : Env) (commit : Text) (w v : World) : Prop where
  archives : v.archives = w.archives
  frame : ∀ p, p ≠ .legacy commit → p ≠ .temp → v.trees p = w.trees p
  cache : v.trees (.legacy commit) = w.trees (.legacy commit) ∨
    ∃ t, v.trees (.legacy commit) = some t ∧ (env.sameFs = true →
      ∃ t' top, Extracted env w (.legacy commit) t' ∧ t = t'.sub top)

theorem LegacyPublishes.refl (env : Env) (commit : Text) (w : World) :
    LegacyPublishes env commit w w :=
  ⟨rfl, fun _ _ _ => rfl, Or.inl rfl⟩

/-- What is done in the temporary directory. -/
theorem LegacyPublishes.temp (h : LegacyPublishes env commit w v) (t : Option Tree) :
    LegacyPublishes env commit w (v.put .temp t) where
  archives := h.archives
  frame p hc ht := by
    rw [World.put_of_ne ht]
    exact h.frame p hc ht
  cache := by
    rw [World.put_of_ne (by simp)]
    exact h.cache

theorem LegacyPublishes.moved (h : LegacyPublishes env commit w v)
    (ht : env.sameFs = true → ∃ t' top, Extracted env w (.legacy commit) t' ∧ t = t'.sub top) :
    LegacyPublishes env commit w (v.put (.legacy commit) (some t)) where
  archives := h.archives
  frame p hc htemp := by
    rw [World.put_of_ne hc]
    exact h.frame p hc htemp
  cache := Or.inr ⟨t, World.put_self _ _ _, ht⟩

theorem LegacyPublishes.sound (h : LegacyPublishes env commit w v) (hw : Sound env w) :
    Sound env v where
  served := h.archives ▸ hw.served
  openCore k t hk := by
    rw [h.frame _ (by simp) (by simp)] at hk
    exact hw.openCore k t hk
  legacy hfs c t hc := by
    by_cases hcc : c = commit
    · subst hcc
      obtain hsame | ⟨t', ht', hE⟩ := h.cache
      · exact hw.legacy hfs c t (hsame ▸ hc)
      · obtain rfl : t' = t := Option.some.inj (ht'.symm.trans hc)
        obtain ⟨t₀, top, ht₀, rfl⟩ := hE hfs
        exact ⟨t₀, top, ht₀.complete hw, rfl⟩
    · rw [h.frame _ (fun he => hcc (Place.legacy.inj he)) (by simp)] at hc
      exact hw.legacy hfs c t hc

/-- **A run of the part for the legacy kexts**, wherever it is cut off. -/
theorem extractLegacy_publishes (htemp : w.trees .temp = none) :
    Ensures (Effect env) (fun _ => LegacyPublishes env commit w) (extractLegacy commit)
      (fun _ _ => LegacyPublishes env commit w) l w := by
  have h := LegacyPublishes.refl env commit w
  refine ensures_have (fun _ _ _ _ hE => hE.1) h fun b l => ?_
  cases b with
  | true => exact ⟨h, h⟩
  | false =>
    show Ensures _ _ (absent _ _ >>= fun _ => exec _ >>= fun _ => unpackDitto _ _ >>= fun _ => _)
      _ _ _
    rw [ensures_bind]
    refine (ensures_absent h).imp ?_
    rintro _ l w ⟨rfl, hnone⟩
    -- unpacked into the temporary directory, and looked at there
    rw [ensures_bind]
    have h₁ := h.temp (some emptyTree)
    refine (ensures_mkdir h h₁ htemp).imp ?_
    rintro _ l _ rfl
    rw [ensures_bind]
    refine (ensures_unpacks h₁ (fun t => h₁.temp (some t)) (World.put_self _ _ _)
      (Or.inr (Or.inr rfl))).imp ?_
    rintro _ l _ ⟨t, ⟨tool, b, hb, ht⟩, rfl⟩
    have h₂ := h₁.temp (some t)
    rw [ensures_bind, ensures_capture]
    refine ⟨h₂, ?_⟩
    rintro r v ⟨rfl, -⟩
    refine ⟨h₂, fun _ => ?_⟩
    rw [ensures_bind, ensures_orDie]
    refine ⟨h₂, fun _ => ?_⟩
    rw [ensures_bind]
    refine (ensures_test h₂).imp ?_
    rintro _ l v ⟨rfl, -⟩
    rw [ensures_bind]
    refine (ensures_run h₂).imp ?_
    rintro _ l v rfl
    rw [ensures_exec]
    refine ⟨h₂, fun r v hmv => ?_⟩
    have hempty : ((w.put .temp (some emptyTree)).put .temp (some t)).trees (.legacy commit) =
        none := by
      rw [World.put_of_ne (by simp), World.put_of_ne (by simp), hnone]
    -- across file systems `mv` is a copy, which may stop with a part
    obtain ⟨hr, rfl⟩ | ⟨t₁, t₂, rest, ht₁, hnew, rfl⟩ := hmv
    · exact ⟨h₂, fun h0 => absurd h0 hr⟩
    · obtain rfl : t = t₁ := Option.some.inj ((World.put_self _ _ _).symm.trans ht₁)
      have h₃ := (h₂.temp (some rest)).moved (t := t₂) fun hfs =>
        ⟨t, _, ⟨tool, b, hb, ht⟩, hnew (Or.inr hfs) hempty⟩
      exact ⟨h₃, fun _ => h₃⟩

/-! ### Whole runs -/

/-- What `run_download` keeps: `J` throughout, and `K` once OpenCore is extracted. -/
theorem ensures_runDownload {J K : World → Prop} (hw : J w) (hKJ : ∀ v, K v → J v)
    (htemp : ∀ v t, J v → J (v.put .temp t))
    (hdownJ : ∀ l a r v v', Effect env l (.download a) r v v' → J v → J v')
    (hdownK : ∀ l a r v v', Effect env l (.download a) r v v' → K v → K v')
    (hextract : ∀ v l, J v → Ensures (Effect env) (fun _ => J) (extractZipOnce k)
      (fun _ _ v' => K v' ∧ v'.trees .temp = v.trees .temp) l v)
    (hlegacy : ∀ v v', LegacyPublishes env commit v v' → K v → K v') :
    Ensures (Effect env) (fun _ => J) (runDownload k commit) (fun _ _ => K) l w := by
  rw [runDownload, ensures_bind, ensures_exec]
  refine ⟨hw, fun r w₁ hE => ?_⟩
  by_cases hr : r.status = 0
  · -- the temporary directory
    rw [Effect, if_pos hr] at hE
    subst hE
    have h₁ := htemp w none hw
    refine ⟨h₁, fun _ => ?_⟩
    -- OpenCore
    rw [ensures_bind, ensures_exec]
    refine ⟨h₁, fun r w₂ hE => ?_⟩
    have h₂ := hdownJ _ _ _ _ _ hE h₁
    have hnone₂ : w₂.trees .temp = none := by rw [hE.1, World.put_self]
    refine ⟨h₂, fun _ => ?_⟩
    rw [ensures_bind]
    refine (hextract _ _ h₂).imp ?_
    rintro _ l v ⟨h₃, hsame⟩
    rw [ensures_bind]
    refine (ensures_test (hKJ _ h₃)).imp ?_
    rintro _ l v ⟨rfl, -⟩
    rw [ensures_bind]
    refine (ensures_test (hKJ _ h₃)).imp ?_
    rintro _ l v ⟨rfl, -⟩
    -- the legacy kexts
    rw [ensures_bind, ensures_exec]
    refine ⟨hKJ _ h₃, fun r w₄ hE => ?_⟩
    have h₄ := hdownK _ _ _ _ _ hE h₃
    have hnone₄ : w₄.trees .temp = none := by rw [hE.1, hsame, hnone₂]
    refine ⟨hKJ _ h₄, fun _ => ?_⟩
    rw [ensures_bind]
    refine (extractLegacy_publishes hnone₄).mono (fun _ v hv => hKJ _ (hlegacy _ _ hv h₄)) ?_
    rintro _ l v hv
    have h₅ := hlegacy _ _ hv h₄
    refine (ensures_run (hKJ _ h₅)).imp ?_
    rintro _ l v rfl
    exact h₅
  · rw [Effect, if_neg hr] at hE
    subst hE
    exact ⟨hw, fun h0 => absurd h0 hr⟩

/-- What a published cache keeps, `extract_zip_once` keeps. -/
theorem extractZipOnce_keeps {J : World → Prop} (hJ : ∀ v v', Publishes env k v v' → J v → J v')
    (hw : J w) : Ensures (Effect env) (fun _ => J) (extractZipOnce k)
      (fun _ _ v => J v ∧ v.trees .temp = w.trees .temp) l w :=
  extractZipOnce_publishes.mono (fun _ _ hP => hJ _ _ hP hw)
    fun _ _ _ hP => ⟨hJ _ _ hP hw, hP.frame _ (by simp) (by simp)⟩

/-- `validate_cache` only looks. -/
theorem ensures_validateCache (hI : I w) :
    Ensures (Effect env) (fun _ => I) (validateCache k) (fun _ _ v => v = w) l w := by
  rw [validateCache]
  induction validated generalizing l with
  | nil => exact ⟨hI, rfl⟩
  | cons f fs ih =>
    rw [List.forM_cons, ensures_bind]
    refine (ensures_test hI).imp ?_
    rintro _ l w ⟨rfl, -⟩
    exact ih

/-- What the selector keeps: what a download keeps and a published cache. -/
theorem ensures_selectDownload {J : World → Prop} (hw : J w)
    (hdown : ∀ l a r v v', Effect env l (.download a) r v v' → J v → J v')
    (hJ : ∀ v v', Publishes env k v v' → J v → J v') :
    Ensures (Effect env) (fun _ => J) (selectDownload k) (fun _ _ => J) l w := by
  rw [selectDownload, ensures_bind, ensures_exec]
  refine ⟨hw, fun r w₁ hE => ?_⟩
  have h₁ := hdown _ _ _ _ _ hE hw
  refine ⟨h₁, fun _ => ?_⟩
  rw [ensures_bind]
  refine extractArchive_publishes.mono (fun _ v hv => hJ _ _ hv h₁) ?_
  rintro _ l v hv
  have h₂ := hJ _ _ hv h₁
  rw [ensures_bind]
  -- what is checked is left as it is
  refine (ensures_validateCache h₂).imp ?_
  rintro _ l v rfl
  rw [ensures_bind]
  refine (ensures_validateCache h₂).imp ?_
  rintro _ l v rfl
  rw [ensures_bind, ensures_require]
  refine ⟨h₂, ?_⟩
  rintro r v rfl
  refine ⟨h₂, fun _ => ?_⟩
  rw [ensures_bind, ensures_require]
  refine ⟨h₂, ?_⟩
  rintro r v rfl
  refine ⟨h₂, fun _ => ?_⟩
  refine (ensures_run h₂).imp ?_
  rintro _ l v rfl
  exact h₂

/-- Runs of `run_download` and of the selector, for any releases and commits. -/
def AnyRuns (env : Env) : World → World → Prop :=
  Sessions (Effect env) fun p => (∃ k c, p = runDownload k c) ∨ ∃ k, p = selectDownload k

/-- Runs of `run_download` alone. -/
def Downloads (env : Env) : World → World → Prop :=
  Sessions (Effect env) fun p => ∃ k c, p = runDownload k c

/-- What every run keeps: what is done in the temporary directory, what a download keeps, and what
is published. -/
theorem AnyRuns.keeps {J : World → Prop} (h : AnyRuns env w v) (hw : J w)
    (htemp : ∀ v t, J v → J (v.put .temp t))
    (hdown : ∀ l a r v v', Effect env l (.download a) r v v' → J v → J v')
    (hJ : ∀ k v v', Publishes env k v v' → J v → J v')
    (hlegacy : ∀ c v v', LegacyPublishes env c v v' → J v → J v') : J v := by
  refine Sessions.inv h hw ?_
  rintro p (⟨k, c, rfl⟩ | ⟨k, rfl⟩) v hv
  · exact ⟨_, ensures_runDownload hv (fun _ h => h) htemp hdown hdown
      (fun _ _ hv => extractZipOnce_keeps (hJ k) hv) (hlegacy c)⟩
  · exact ⟨_, ensures_selectDownload hv hdown (hJ k)⟩

theorem AnyRuns.sound (h : AnyRuns env w v) (hw : Sound env w) : Sound env v :=
  h.keeps hw (fun _ t hv => hv.temp t) (fun _ _ _ _ _ hE hv => hv.download hE.1 hE.2)
    (fun _ _ _ hP hv => hP.sound hv) fun _ _ _ hP hv => hP.sound hv

/-- A directory beside the cache is there without a cache. -/
theorem AnyRuns.alone (h : AnyRuns env w v) (hw : Alone k w) : Alone k v :=
  h.keeps hw
    (fun _ _ hv => hv.congr (World.put_of_ne (by simp)) (World.put_of_ne (by simp)))
    (fun _ _ _ _ _ hE hv => hv.congr (by rw [hE.1]) (by rw [hE.1]))
    (fun _ _ _ hP hv => hP.alone_of_alone hv)
    fun _ _ _ hP hv => hv.congr (hP.frame _ (by simp) (by simp)) (hP.frame _ (by simp) (by simp))

/-- A directory that an earlier run has left stays, and the cache stays away. -/
def Blocked (k : Release) (t : Tree) (w : World) : Prop :=
  w.trees (.staging k) = some t ∧ w.trees (.openCore k) = none

theorem Blocked.congr (hs : v.trees (.staging k) = w.trees (.staging k))
    (hc : v.trees (.openCore k) = w.trees (.openCore k)) (hw : Blocked k t w) : Blocked k t v :=
  ⟨hs.trans hw.1, hc.trans hw.2⟩

/-- **What a run that was cut off has left**: a directory beside the cache, after any runs from a
place without one, is one that stays. -/
theorem AnyRuns.blocked (h : AnyRuns env w v) (hw : Alone k w)
    (ht : v.trees (.staging k) = some t) : Blocked k t v := by
  refine ⟨ht, (h.alone hw).resolve_right fun hnone => ?_⟩
  rw [ht] at hnone
  cases hnone

/-- `extract_zip_once` ends there. -/
theorem extractZipOnce_blocked (hw : Blocked k t w) : Ensures (Effect env) (fun _ v => v = w)
    (extractZipOnce k) (fun _ _ _ => False) l w := by
  have hnone : w.node (.openCore k) sample = none := by
    rw [World.node, hw.2]
    rfl
  rw [extractZipOnce, ensures_bind, ensures_holds]
  refine ⟨rfl, ?_⟩
  rintro r w ⟨rfl, htest⟩
  refine ⟨rfl, ?_⟩
  have hr : ¬ r.status = 0 := fun h0 => by
    rw [htest, hnone] at h0
    cases h0
  rw [decide_eq_false hr]
  show Ensures _ _ (absent _ _ >>= fun _ => absent _ _ >>= fun _ => _) _ _ _
  rw [ensures_bind]
  refine (ensures_absent (I := fun v => v = w) rfl).imp ?_
  rintro _ l v ⟨rfl, -⟩
  rw [ensures_bind]
  refine (ensures_absent (I := fun w => w = v) rfl).imp ?_
  rintro _ l _ ⟨rfl, hstaging⟩
  exact absurd (hw.1.symm.trans hstaging) (by simp)

/-- A run for the same release never returns; one for another release changes nothing there. -/
theorem runDownload_blocked {k' : Release} (hw : Blocked k t w) :
    Ensures (Effect env) (fun _ => Blocked k t) (runDownload k' commit)
      (fun _ _ v => Blocked k t v ∧ k' ≠ k) l w := by
  have htemp : ∀ v t', Blocked k t v → Blocked k t (v.put .temp t') := fun v t' hv =>
    hv.congr (World.put_of_ne (by simp)) (World.put_of_ne (by simp))
  have hdown : ∀ l a r v v', Effect env l (.download a) r v v' → Blocked k t v →
      Blocked k t v' := fun _ _ _ _ _ hE hv => hv.congr (by rw [hE.1]) (by rw [hE.1])
  refine ensures_runDownload (K := fun v => Blocked k t v ∧ k' ≠ k) hw (fun _ h => h.1) htemp hdown
    (fun l a r v v' hE hv => ⟨hdown l a r v v' hE hv.1, hv.2⟩) (fun v l hv => ?_)
    fun v v' hP hv => ⟨hv.1.congr (hP.frame _ (by simp) (by simp))
      (hP.frame _ (by simp) (by simp)), hv.2⟩
  by_cases hk : k' = k
  · subst hk
    refine (extractZipOnce_blocked hv).mono ?_ fun _ _ _ h => h.elim
    rintro l v rfl
    exact hv
  · refine (extractZipOnce_keeps (J := fun v => Blocked k t v) ?_ hv).imp
      fun _ _ _ h => ⟨⟨h.1, hk⟩, h.2⟩
    refine fun v v' hP hv => hv.congr (hP.frame _ (by simp) ?_) (hP.frame _ ?_ (by simp))
    · exact fun he => hk (Place.staging.inj he).symm
    · exact fun he => hk (Place.openCore.inj he).symm

theorem Downloads.blocked (h : Downloads env w v) (hw : Blocked k t w) : Blocked k t v := by
  refine Sessions.inv h hw ?_
  rintro p ⟨k', c, rfl⟩ v hv
  exact ⟨_, (runDownload_blocked hv).imp fun _ _ _ h => h⟩

/-- **OpenCore is published whole.**  After any runs of both programs, each cut off anywhere, a
cache directory of OpenCore that is there is what an archive of that release holds. -/
theorem openCore_complete (hw : Sound env w) (h : AnyRuns env w v) (k : Release) :
    v.trees (.openCore k) = none ∨
      ∃ t, v.trees (.openCore k) = some t ∧ Complete env (.openCore k) t := by
  cases hk : v.trees (.openCore k) with
  | none => exact Or.inl rfl
  | some t => exact Or.inr ⟨t, rfl, (h.sound hw).openCore k t hk⟩

/-- **A stale directory stops `run_download`.**  When a run has been cut off during an extraction,
no later runs change what it left or make the cache, and none for that release returns. -/
theorem staging_blocks (hw : Blocked k t w) (h : Downloads env w v) :
    v.trees (.staging k) = some t ∧ v.trees (.openCore k) = none ∧
      ∀ commit v', ¬ Finishes (Effect env) (runDownload k commit) v () v' := by
  have hv := h.blocked hw
  refine ⟨hv.1, hv.2, fun commit v' hf => ?_⟩
  obtain ⟨_, _, hk⟩ := hf.post (runDownload_blocked hv)
  exact hk rfl

end

/-! ### Runs in which nothing fails -/

section

/-- The answers of a machine on which `unzip` is the only program that extracts, and every command
that can succeed does; but the copy of the legacy kexts is cut off where `part` of them is given. -/
def perform (env : Env) (srv : Archive → Option (List UInt8)) (top : Text) (part : Option Tree) :
    Cmd → World → Reply × World
  | .run _, w => (.done, w)
  | .mktemp, w => (.done, w.put .temp none)
  | .download a, w =>
    ⟨.done, { w with archives := fun a' => if a' = a then (w.archives a).or (srv a)
      else w.archives a' }⟩
  | .test t p rel, w => (.test (t.accepts (w.node p rel)), w)
  | .has tool, w => (.test (tool = .unzip), w)
  | .mkdir p, w => (.done, if w.trees p = none then w.put p (some emptyTree) else w)
  | .unpack tool a p, w =>
    match (w.archives a).bind (env.content tool) with
    | some t => (.done, w.put p (some (overlay ((w.trees p).getD emptyTree) t)))
    | none => (.failed, w)
  | .rm p, w => (.done, w.put p none)
  | .mv p q, w =>
    match w.trees p, w.trees q with
    | some t, none => (.done, (w.put p none).put q (some t))
    | _, _ => (.failed, w)
  | .findTop, w => if w.node .temp top = some .dir then (.text top, w) else (.failed, w)
  | .mvTop top q, w =>
    match w.trees .temp, w.trees q, part with
    | some t, none, none => (.done, (w.put .temp (some emptyTree)).put q (some (t.sub top)))
    | some t, none, some t' => (.failed, (w.put .temp (some t)).put q (some t'))
    | _, _, _ => (.failed, w)

variable {env : Env} {srv : Archive → Option (List UInt8)} {top : Text} {part : Option Tree}

theorem effect_perform (hsrv : ∀ a b, srv a = some b → env.served a b)
    (hpart : part = none ∨ env.sameFs = false) (top : Text) (l : List (Cmd × Reply)) (c : Cmd)
    (w : World) :
    Effect env l c (perform env srv top part c w).1 w (perform env srv top part c w).2 := by
  cases c with
  | run line => rfl
  | mktemp => rfl
  | download a =>
    refine ⟨rfl, fun a' b hb => ?_⟩
    -- only the archive that is asked for can be new
    by_cases ha : a' = a
    · subst ha
      simp only [perform, if_pos] at hb
      cases hold : w.archives a' with
      | none =>
        rw [hold, Option.none_or] at hb
        exact Or.inr ⟨rfl, hsrv _ _ hb⟩
      | some b' =>
        rw [hold, Option.some_or] at hb
        exact Or.inl hb
    · simp only [perform, if_neg ha] at hb
      exact Or.inl hb
  | test t p rel => exact ⟨rfl, status_test _⟩
  | has tool => rfl
  | mkdir p =>
    simp only [perform, Effect]
    split
    · next h => exact Or.inr ⟨h, rfl⟩
    · next h => exact Or.inl ⟨rfl, fun _ => h⟩
  | unpack tool a p =>
    simp only [perform]
    -- nothing to unpack, or nothing in it
    cases ha : w.archives a with
    | none => exact Or.inl rfl
    | some b =>
      cases ht : env.content tool b with
      | none =>
        simp only [Option.bind_some, ht]
        exact Or.inl rfl
      | some t =>
        simp only [Option.bind_some, ht]
        exact ⟨b, t, ha, ht, rfl⟩
  | rm p => rfl
  | mv p q =>
    simp only [perform]
    split
    · next t ht hq => exact Or.inr ⟨t, t, ht, fun _ => rfl, rfl⟩
    · exact Or.inl ⟨by simp, rfl⟩
  | findTop =>
    simp only [perform]
    split
    · next h => exact ⟨rfl, fun _ _ => h⟩
    · exact ⟨rfl, fun h0 => absurd h0 (by simp)⟩
  | mvTop top q =>
    simp only [perform]
    split
    · next t ht hq => exact Or.inr ⟨t, t.sub top, emptyTree, ht, fun _ _ => rfl, rfl⟩
    · next t t' ht hq =>
      -- a copy that is cut off is one across file systems
      refine Or.inr ⟨t, t', t, ht, fun h => ?_, rfl⟩
      obtain hp | hfs := hpart
      · cases hp
      · simp [hfs] at h
    · exact Or.inl ⟨by simp, rfl⟩

variable {k : Release} {commit : Text} {w : World} {t : Tree} {b : List UInt8}

theorem World.put_put (w : World) (p : Place) (t t' : Option Tree) :
    (w.put p t).put p t' = w.put p t' := by
  have h : (fun q => if q = p then t' else if q = p then t else w.trees q) =
      fun q => if q = p then t' else w.trees q := by
    funext q
    by_cases hq : q = p
    · rw [if_pos hq, if_pos hq]
    · rw [if_neg hq, if_neg hq, if_neg hq]
  exact congrArg (World.mk w.archives) h

section

variable {f : Cmd → World → Reply × World} {c : Cmd}

theorem play_exec_ret (h : (f c w).1.status = 0) :
    play f (exec c : Sh Unit) w = (.ret (), (f c w).2) := by
  rw [← bind_pure (exec c), play_exec h, play_ret]

theorem play_exec_failed (h : (f c w).1 = .failed) :
    play f (exec c : Sh Unit) w = (.exit 1 "", (f c w).2) := by
  rw [exec, Script.cmd_bind, play, exitStatus_reply, h]
  rfl

theorem play_holds_true {g : Bool → Sh Unit} (h : (f c w).1.status = 0) :
    play f (holds c >>= g) w = play f (g true) (f c w).2 := by
  rw [play_holds, decide_eq_true h]

theorem play_holds_false {g : Bool → Sh Unit} (h : (f c w).1.status ≠ 0) :
    play f (holds c >>= g) w = play f (g false) (f c w).2 := by
  rw [play_holds, decide_eq_false h]

end

theorem World.node_eq {p : Place} {rel : Text} (hrel : rel ≠ []) (hp : w.trees p = some t) :
    w.node p rel = t rel := by
  rw [World.node, if_neg hrel, hp, Option.bind_some]

theorem World.node_none {p : Place} {rel : Text} (hp : w.trees p = none) :
    w.node p rel = none := by
  rw [World.node, hp]
  split <;> rfl

theorem test_none {x : Test} {p : Place} {rel : Text} (hp : w.trees p = none) :
    (perform env srv top part (.test x p rel) w).1.status ≠ 0 := by
  rw [perform, World.node_none hp]
  cases x <;> simp [Reply.test, Test.accepts]

theorem test_some {x : Test} {p : Place} {rel : Text} (hrel : rel ≠ []) (hp : w.trees p = some t)
    (hx : x.accepts (t rel) = true) :
    (perform env srv top part (.test x p rel) w).1.status = 0 := by
  rw [perform, World.node_eq hrel hp, hx]
  rfl

theorem play_absent {p : Place} {msg : String} {g : Unit → Sh Unit} (hp : w.trees p = none) :
    play (perform env srv top part) (absent p msg >>= g) w =
      play (perform env srv top part) (g ()) w := by
  rw [absent, bind_assoc, play_holds_false (test_none hp)]
  rfl

/-- An undisturbed run of `extract_archive` where there is no cache, whatever is beside it. -/
theorem play_extractArchive (ha : w.archives (.openCore k) = some b)
    (ht : env.content .unzip b = some t) (hs : Test.f.accepts (t sample) = true)
    (hnone : w.trees (.openCore k) = none) :
    play (perform env srv top part) (extractArchive k) w =
      (.ret (), (w.put (.staging k) none).put (.openCore k) (some t)) := by
  have hunpack : perform env srv top part (.unpack .unzip (.openCore k) (.staging k))
      (w.put (.staging k) (some emptyTree)) = (.done, w.put (.staging k) (some t)) := by
    simp [perform, ha, ht, World.put_put]
  have hmv : perform env srv top part (.mv (.staging k) (.openCore k))
      (w.put (.staging k) (some t)) =
        (.done, (w.put (.staging k) none).put (.openCore k) (some t)) := by
    have hcache : (w.put (.staging k) (some t)).trees (.openCore k) = none := by
      rw [World.put_of_ne (by simp), hnone]
    simp [perform, hcache, World.put_put]
  have hmkdir : perform env srv top part (.mkdir (.staging k)) (w.put (.staging k) none) =
      (.done, w.put (.staging k) (some emptyTree)) := by
    simp [perform, World.put_put]
  -- what the commands answer, one after the other
  rw [extractArchive, play_holds_false (test_none hnone)]
  show play _ (absent _ _ >>= fun _ => exec (.rm _) >>= fun _ => exec _ >>= fun _ => _) w = _
  rw [play_absent hnone, play_exec rfl]
  show play _ (exec _ >>= fun _ => _) (w.put (.staging k) none) = _
  rw [play_exec (by rw [hmkdir]; rfl), hmkdir, unpackZip, bind_assoc, play_holds_true rfl]
  show play _ (exec _ >>= fun _ => _) (w.put (.staging k) (some emptyTree)) = _
  rw [play_exec (by rw [hunpack]; rfl), hunpack]
  show play _ (require (Cmd.test .f (.staging k) sample) _ >>= fun _ => _)
    (w.put (.staging k) (some t)) = _
  rw [play_require (test_some sample_ne_nil (World.put_self _ _ _) hs), play_exec rfl]
  show play _ (exec _) (w.put (.staging k) (some t)) = _
  rw [play_exec_ret (by rw [hmv]; rfl), hmv]

theorem validated_ne_nil : ∀ f ∈ validated, f.1 ≠ [] := by decide

theorem play_validateCache {g : Unit → Sh Unit} (hk : w.trees (.openCore k) = some t)
    (ht : ∀ f ∈ validated, Test.f.accepts (t f.1) = true) :
    play (perform env srv top part) (validateCache k >>= g) w =
      play (perform env srv top part) (g ()) w := by
  have h : ∀ fs : List (Text × String), (∀ f ∈ fs, f.1 ≠ [] ∧ Test.f.accepts (t f.1) = true) →
      play (perform env srv top part) ((forM fs fun f => require (.test .f (.openCore k) f.1) f.2 :
        Sh Unit) >>= g) w = play (perform env srv top part) (g ()) w := by
    intro fs hfs
    induction fs with
    | nil => rfl
    | cons f fs ih =>
      obtain ⟨hne, hf⟩ := hfs f List.mem_cons_self
      rw [List.forM_cons, bind_assoc, play_require (test_some hne hk hf)]
      exact ih fun f' hf' => hfs f' (List.mem_cons_of_mem _ hf')
  exact h validated fun f hf => ⟨validated_ne_nil f hf, ht f hf⟩

theorem effect_offline (env : Env) (l : List (Cmd × Reply)) (c : Cmd) (w : World) :
    Effect env l c (perform env (fun _ => none) [] none c w).1 w
      (perform env (fun _ => none) [] none c w).2 :=
  effect_perform (fun _ _ h => absurd h (Option.some_ne_none _).symm) (Or.inl rfl) [] l c w

/-- An undisturbed run of the selector where there is no cache, and the archive is there. -/
theorem play_selectDownload (ha : w.archives (.openCore k) = some b)
    (hb : env.content .unzip b = some t) (ht : ∀ f ∈ validated, Test.f.accepts (t f.1) = true)
    (hnone : w.trees (.openCore k) = none) :
    play (perform env srv top part) (selectDownload k) w =
      (.ret (), (w.put (.staging k) none).put (.openCore k) (some t)) := by
  have hs : Test.f.accepts (t sample) = true := ht _ List.mem_cons_self
  have hdown : perform env srv top part (.download (.openCore k)) w = (.done, w) := by
    have harch : (fun a' => if a' = .openCore k then (w.archives (.openCore k)).or
        (srv (.openCore k)) else w.archives a') = w.archives := by
      funext a'
      split
      · next h => rw [h, ha, Option.some_or]
      · rfl
    rw [perform, harch]
  rw [selectDownload, play_exec (by rw [hdown]; rfl), hdown, play_bind,
    play_extractArchive ha hb hs hnone]
  show play _ (validateCache k >>= fun _ => validateCache k >>= fun _ => _) _ = _
  rw [play_validateCache (World.put_self _ _ _) ht, play_validateCache (World.put_self _ _ _) ht,
    play_require rfl, play_require rfl, play_exec_ret rfl]
  rfl

/-- **The selector goes on where `run_download` stops.**  Whatever has been left beside it, the run
of the selector in which every command does its work returns, with the cache of an archive that has
the files it asks for and nothing beside it. -/
theorem selector_clears (hw : Blocked k t w) {t' : Tree} (ha : w.archives (.openCore k) = some b)
    (hb : env.content .unzip b = some t')
    (ht : ∀ f ∈ validated, Test.f.accepts (t' f.1) = true)
    (hsrv : ∀ a b, srv a = some b → env.served a b) :
    ∃ v, play (perform env srv top none) (selectDownload k) w = (.ret (), v) ∧
      Finishes (Effect env) (selectDownload k) w () v ∧ v.trees (.openCore k) = some t' ∧
      v.trees (.staging k) = none := by
  have hrun : play (perform env srv top none) (selectDownload k) w = _ :=
    play_selectDownload ha hb ht hw.2
  have hfin := finishes_play (effect_perform hsrv (Or.inl rfl) top) (congrArg Prod.fst hrun)
  rw [hrun] at hfin
  refine ⟨_, hrun, hfin, World.put_self _ _ _, ?_⟩
  rw [World.put_of_ne (by simp), World.put_self]

/-- A run of `extractLegacy` where there is no cache, whose copy is cut off with `part`. -/
theorem play_extractLegacy {part : Tree} (ha : w.archives (.legacy commit) = some b)
    (hb : env.content .unzip b = some t) (htop : top ≠ []) (hdir : t top = some .dir)
    (hfat : t (top ++ '/' :: fat) = some .dir) (hnone : w.trees (.legacy commit) = none)
    (htemp : w.trees .temp = none) :
    play (perform env srv top (some part)) (extractLegacy commit) w =
      (.exit 1 "", (w.put .temp (some t)).put (.legacy commit) (some part)) := by
  have hmkdir : perform env srv top (some part) (.mkdir .temp) w =
      (.done, w.put .temp (some emptyTree)) := by
    simp [perform, htemp]
  have hunpack : perform env srv top (some part) (.unpack .unzip (.legacy commit) .temp)
      (w.put .temp (some emptyTree)) = (.done, w.put .temp (some t)) := by
    simp [perform, ha, hb, World.put_put]
  have hfind : perform env srv top (some part) .findTop (w.put .temp (some t)) =
      (.text top, w.put .temp (some t)) := by
    rw [perform, World.node_eq htop (World.put_self _ _ _), if_pos hdir]
  -- the copy is cut off, and `mv` fails
  have hmv : perform env srv top (some part) (.mvTop top (.legacy commit)) (w.put .temp (some t)) =
      (.failed, (w.put .temp (some t)).put (.legacy commit) (some part)) := by
    have hcache : (w.put .temp (some t)).trees (.legacy commit) = none := by
      rw [World.put_of_ne (by simp), hnone]
    simp [perform, hcache, World.put_put]
  have hfat' : Test.d.accepts (t (top ++ '/' :: fat)) = true := by rw [hfat]; rfl
  rw [extractLegacy, play_holds_false (test_none hnone)]
  show play _ (absent _ _ >>= fun _ => exec _ >>= fun _ => unpackDitto _ _ >>= fun _ => _) w = _
  rw [play_absent hnone, play_exec (by rw [hmkdir]; rfl), hmkdir, unpackDitto, bind_assoc,
    play_holds_false (by simp [perform, Reply.test])]
  show play _ (exec _ >>= fun _ => _) (w.put .temp (some emptyTree)) = _
  rw [play_exec (by rw [hunpack]; rfl), hunpack, play_capture (by rw [hfind]; rfl), hfind,
    play_orDie (by simp [htop])]
  show play _ (require (Cmd.test .d .temp (top ++ '/' :: fat)) _ >>= fun _ => _)
    (w.put .temp (some t)) = _
  rw [play_require (test_some (by simp) (World.put_self _ _ _) hfat'), play_exec rfl]
  show play _ (exec (Cmd.mvTop top _)) (w.put .temp (some t)) = _
  rw [play_exec_failed (by rw [hmv]), hmv]

/-- What the two programs ask of an archive of OpenCore. -/
def HasTools (t : Tree) : Prop :=
  Test.f.accepts (t sample) = true ∧ Test.d.accepts (t "Utilities/LegacyBoot".toList) = true ∧
    Test.f.accepts (t "Utilities/ocvalidate/ocvalidate".toList) = true

/-- Only OpenCore is there, and the archives `a`. -/
def onlyOpenCore (k : Release) (t : Tree) (a : Archive → Option (List UInt8)) : World :=
  ⟨a, fun p => if p = .openCore k then some t else none⟩

/-- A server that sends the archive of the legacy kexts alone. -/
def serveLegacy (commit : Text) (b : List UInt8) : Archive → Option (List UInt8) :=
  fun a => if a = .legacy commit then some b else none

theorem accepts_e {x : Test} {n : Option Node} (h : x.accepts n = true) :
    Test.e.accepts n = true := by
  cases n with
  | none => cases x <;> cases h
  | some n => rfl

/-- A run of `run_download` where only OpenCore is there, whose copy is cut off with `part`. -/
theorem play_runDownload {part toc : Tree} (hoc : HasTools toc) (hb : env.content .unzip b = some t)
    (htop : top ≠ []) (hdir : t top = some .dir) (hfat : t (top ++ '/' :: fat) = some .dir) :
    (play (perform env (serveLegacy commit b) top (some part)) (runDownload k commit)
      (onlyOpenCore k toc fun _ => none)).2 =
        ((onlyOpenCore k toc (serveLegacy commit b)).put .temp (some t)).put (.legacy commit)
          (some part) := by
  obtain ⟨hsample, hboot, hvalidate⟩ := hoc
  have hthere : ∀ a, (onlyOpenCore k toc a).trees (.openCore k) = some toc := fun a => if_pos rfl
  -- there is no temporary directory, OpenCore is there, and the kexts are sent
  have hmk : (onlyOpenCore k toc fun _ => none).put .temp none =
      onlyOpenCore k toc fun _ => none := by
    refine congrArg (World.mk _) (funext fun p => ?_)
    split
    · next h => simp [h]
    · rfl
  have hopen : perform env (serveLegacy commit b) top (some part) (.download (.openCore k))
      (onlyOpenCore k toc fun _ => none) = (.done, onlyOpenCore k toc fun _ => none) := by
    refine congrArg (fun a => (Reply.done, World.mk a _)) (funext fun a' => ?_)
    split
    · next h => simp [serveLegacy, onlyOpenCore]
    · rfl
  have hlegacy : perform env (serveLegacy commit b) top (some part) (.download (.legacy commit))
      (onlyOpenCore k toc fun _ => none) = (.done, onlyOpenCore k toc (serveLegacy commit b)) := by
    refine congrArg (fun a => (Reply.done, World.mk a _)) (funext fun a' => ?_)
    by_cases h : a' = .legacy commit
    · simp [serveLegacy, onlyOpenCore, h]
    · simp [serveLegacy, onlyOpenCore, h]
  rw [runDownload, play_exec rfl]
  show (play _ (exec _ >>= fun _ => extractZipOnce _ >>= fun _ => _)
    ((onlyOpenCore k toc fun _ => none).put .temp none)).2 = _
  rw [hmk, play_exec (by rw [hopen]; rfl), hopen, extractZipOnce, bind_assoc,
    play_holds_true (test_some sample_ne_nil (hthere _) (accepts_e hsample))]
  show (play _ (require (Cmd.test .d (.openCore k) _) _ >>= fun _ => require _ _ >>= fun _ =>
    exec _ >>= fun _ => extractLegacy _ >>= fun _ => _) (onlyOpenCore k toc fun _ => none)).2 = _
  rw [play_require (test_some (by decide) (hthere _) hboot)]
  show (play _ (require (Cmd.test .f (.openCore k) _) _ >>= fun _ => exec _ >>= fun _ =>
    extractLegacy _ >>= fun _ => _) (onlyOpenCore k toc fun _ => none)).2 = _
  rw [play_require (test_some (by decide) (hthere _) hvalidate)]
  show (play _ (exec _ >>= fun _ => extractLegacy _ >>= fun _ => _)
    (onlyOpenCore k toc fun _ => none)).2 = _
  rw [play_exec (by rw [hlegacy]; rfl), hlegacy, play_bind,
    play_extractLegacy (if_pos rfl) hb htop hdir hfat rfl rfl]

/-- **The kexts are published whole exactly when a rename suffices.**  Where an archive can be
had, every accepted cache of the legacy kexts is complete after any runs if and only if the
temporary directory is on the file system of the cache: what is accepted is that `FAT` is there,
and a copy that was cut off may have come as far as `part`. -/
theorem legacy_complete_iff {toc part : Tree} (hoc : Complete env (.openCore k) toc)
    (htools : HasTools toc) (hb : env.served (.legacy commit) b)
    (ht : env.content .unzip b = some t) (htop : top ≠ []) (hdir : t top = some .dir)
    (hfat : t (top ++ '/' :: fat) = some .dir) (hpart : part fat = some .dir)
    (hinc : ¬ LegacyComplete env commit part) :
    (∀ w v, Sound env w → (∀ p, p ≠ .openCore k → w.trees p = none) → AnyRuns env w v →
      ∀ k' commit', loadCurrentSources v k' commit' = true →
        ∃ t', v.trees (.legacy commit') = some t' ∧ LegacyComplete env commit' t') ↔
      env.sameFs = true := by
  constructor
  · -- across file systems: a run whose copy stops with `part`
    intro h
    by_contra hfs
    have hfs' : env.sameFs = false := Bool.eq_false_iff.2 hfs
    have hw : Sound env (onlyOpenCore k toc fun _ => none) := by
      refine ⟨fun a b hab => (by cases hab), fun k' t' hk => ?_, fun h => absurd h hfs⟩
      simp only [onlyOpenCore, Place.openCore.injEq, Option.ite_none_right_eq_some] at hk
      obtain ⟨rfl, hk⟩ := hk
      exact Option.some.inj hk ▸ hoc
    have hsrv : ∀ a b', serveLegacy commit b a = some b' → env.served a b' := by
      intro a b' hab
      rw [serveLegacy, Option.ite_none_right_eq_some] at hab
      obtain ⟨rfl, hab⟩ := hab
      exact Option.some.inj hab ▸ hb
    have hcut : some part = none ∨ env.sameFs = false := Or.inr hfs'
    have hs := session_play (effect_perform hsrv hcut top) (runDownload k commit)
      (onlyOpenCore k toc fun _ => none)
    rw [play_runDownload htools ht htop hdir hfat] at hs
    have hruns : AnyRuns env _ _ := (Sessions.refl _).tail (Or.inl ⟨k, commit, rfl⟩) hs
    have hkept : (((onlyOpenCore k toc (serveLegacy commit b)).put .temp (some t)).put
        (.legacy commit) (some part)).trees (.openCore k) = some toc := by
      rw [World.put_of_ne (by simp), World.put_of_ne (by simp)]
      exact if_pos rfl
    have hload : loadCurrentSources (((onlyOpenCore k toc (serveLegacy commit b)).put .temp
        (some t)).put (.legacy commit) (some part)) k commit = true := by
      rw [loadCurrentSources, World.node_eq sample_ne_nil hkept,
        World.node_eq fat_ne_nil (World.put_self _ _ _), htools.1, hpart]
      rfl
    obtain ⟨t', ht', hcomplete⟩ := h _ _ hw (fun p hp => if_neg hp) hruns k commit hload
    rw [World.put_self] at ht'
    exact hinc (Option.some.inj ht' ▸ hcomplete)
  · -- within one, what is in the cache was moved there whole
    intro hfs w v hw hnone h k' commit' hload
    rw [loadCurrentSources, Bool.and_eq_true] at hload
    cases hc : v.trees (.legacy commit') with
    | none =>
      rw [World.node_none hc] at hload
      cases hload.2
    | some t' => exact ⟨t', rfl, (h.sound hw).legacy hfs commit' t' hc⟩

/-! ### One machine -/

def release : Release := ⟨['1', '.', '0', '.', '2'], .debug, by decide⟩

/-- An archive of OpenCore: every path is a file, but for one. -/
def openCoreTree : Tree := fun p =>
  if p = "Utilities/LegacyBoot".toList then some .dir else some (.file [])

/-- An archive of the kexts: the directory `k` with `FAT` and a kext in it. -/
def kextTree : Tree := fun p =>
  if p = ['k'] ∨ p = 'k' :: '/' :: fat then some .dir
  else if p = ['k', '/', 'x'] then some (.file [1]) else none

/-- As much of it as `FAT`. -/
def kextPart : Tree := fun p => if p = fat then some .dir else none

/-- Archives of one byte. -/
def machine (sameFs : Bool) : Env where
  content _ b := if b = [1] then some openCoreTree else if b = [2] then some kextTree else none
  served
    | .openCore _, b => b = [1]
    | .legacy _, b => b = [2]
  sameFs := sameFs

theorem complete_openCoreTree (sameFs : Bool) (k : Release) :
    Complete (machine sameFs) (.openCore k) openCoreTree := ⟨.unzip, [1], rfl, rfl⟩

theorem hasTools_openCoreTree : HasTools openCoreTree := by
  refine ⟨?_, ?_, ?_⟩ <;> decide

theorem not_legacyComplete_kextPart (sameFs : Bool) (commit : Text) :
    ¬ LegacyComplete (machine sameFs) commit kextPart := by
  rintro ⟨t, top, ⟨tool, b, hb, ht⟩, hpart⟩
  obtain rfl : b = [2] := hb
  obtain rfl : kextTree = t := Option.some.inj ht
  have hdir : kextTree (top ++ '/' :: fat) = some .dir := (congrFun hpart fat).symm
  have hfile : kextTree (top ++ ['/', 'x']) = none := (congrFun hpart ['x']).symm
  have hk : top = ['k'] := by
    simp only [kextTree] at hdir
    split at hdir
    · next h =>
      obtain h | h := h
      · simpa [fat] using congrArg List.length h
      · exact List.append_cancel_right (show top ++ '/' :: fat = ['k'] ++ '/' :: fat from h)
    · split at hdir
      · cases hdir
      · cases hdir
  rw [hk] at hfile
  simp [kextTree, fat] at hfile

theorem validated_openCoreTree :
    ∀ f ∈ validated, Test.f.accepts (openCoreTree f.1) = true := by decide

/-- The archive is there, and no directory. -/
def empty : World := ⟨fun a => if a = .openCore release then some [1] else none, fun _ => none⟩

/-- What is done when nothing is served. -/
def offline : Cmd → World → Reply × World := perform (machine true) (fun _ => none) [] none

/-- A run of `run_download` is killed between `mkdir` and the extraction. -/
def stale : World := cut offline (runDownload release []) 6 empty

theorem stale_runs : AnyRuns (machine true) empty stale :=
  (Sessions.refl _).tail (Or.inl ⟨release, [], rfl⟩) (session_cut (effect_offline _) _ 6 _)

/-- It leaves an empty directory. -/
theorem stale_blocked : Blocked release emptyTree stale :=
  stale_runs.blocked (Or.inl rfl) rfl

theorem empty_sound (sameFs : Bool) : Sound (machine sameFs) empty := by
  refine ⟨fun a b hab => ?_, fun k t hk => (by cases hk), fun _ c t hc => (by cases hc)⟩
  simp only [empty, Option.ite_none_right_eq_some] at hab
  obtain ⟨rfl, hab⟩ := hab
  exact (Option.some.inj hab).symm

theorem openCore_complete_sample : ∃ v, AnyRuns (machine true) empty v ∧
    v.trees (.openCore release) = some openCoreTree ∧
      (v.trees (.openCore release) = none ∨ ∃ t, v.trees (.openCore release) = some t ∧
        Complete (machine true) (.openCore release) t) := by
  have hrun : play offline (selectDownload release) stale =
      (.ret (), (stale.put (.staging release) none).put (.openCore release) (some openCoreTree)) :=
    play_selectDownload rfl rfl validated_openCoreTree rfl
  have hs := session_play (effect_offline (machine true)) (selectDownload release) stale
  rw [show perform (machine true) (fun _ => none) [] none = offline from rfl, hrun] at hs
  have hruns : AnyRuns (machine true) empty _ := stale_runs.tail (Or.inr ⟨release, rfl⟩) hs
  exact ⟨_, hruns, World.put_self _ _ _, openCore_complete (empty_sound true) hruns release⟩

theorem staging_blocks_sample : ∃ v, Downloads (machine true) stale v ∧
    (v.trees (.staging release) = some emptyTree ∧ v.trees (.openCore release) = none ∧
      ∀ commit v', ¬ Finishes (Effect (machine true)) (runDownload release commit) v () v') := by
  have hs := session_play (effect_offline (machine true)) (runDownload release []) stale
  have hruns : Downloads (machine true) stale _ := (Sessions.refl _).tail ⟨release, [], rfl⟩ hs
  exact ⟨_, hruns, staging_blocks stale_blocked hruns⟩

theorem selector_clears_sample : ∃ v,
    play offline (selectDownload release) stale = (.ret (), v) ∧
      Finishes (Effect (machine true)) (selectDownload release) stale () v ∧
      v.trees (.openCore release) = some openCoreTree ∧ v.trees (.staging release) = none :=
  selector_clears (b := [1]) stale_blocked rfl rfl validated_openCoreTree
    fun _ _ h => absurd h (Option.some_ne_none _).symm

theorem legacy_complete_iff_sample :
    ¬ ∀ w v, Sound (machine false) w → (∀ p, p ≠ .openCore release → w.trees p = none) →
      AnyRuns (machine false) w v → ∀ k' commit', loadCurrentSources v k' commit' = true →
        ∃ t', v.trees (.legacy commit') = some t' ∧
          LegacyComplete (machine false) commit' t' := fun h =>
  Bool.false_ne_true ((legacy_complete_iff (complete_openCoreTree false release)
    hasTools_openCoreTree (show (machine false).served (.legacy ['a']) [2] from rfl) rfl
    (List.cons_ne_nil 'k' []) rfl rfl rfl (not_legacyComplete_kextPart false ['a'])).1 h)

end

end Extraction

end Cache

end InstallKit
