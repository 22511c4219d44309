import InstallKit.Config.Exactness

/-!
# `scripts/configure_xnu_qemu_esp.py`

The program adapts an accepted configuration to the virtual machine: FakeSMC goes, since the
machine has an AppleSMC of its own, and the partition driver comes first.  The drivers stay valid.
The kexts stay valid unless one that is kept depends on FakeSMC (`configure_accepted_iff`); the
plug-ins inside `FakeSMC.kext` are entries of their own and are kept.
-/

namespace InstallKit

namespace Config

open Sources

/-! ### The program -/

/-- `PARTITION_DRIVER`. -/
def partitionDriver : Text := txt "OpenPartitionDxe.efi"

/-- `str.casefold()` of the characters that fold to one letter of ASCII. -/
def casefoldChar (c : Char) : Char :=
  if c = 'ſ' then 's' else if c = '\u212a' then 'k' else c.toLower

/-- `path.casefold() == "fakesmc.kext"`; no ligature folds to letters of this name. -/
def isFakeSmc (bundlePath : Text) : Bool := bundlePath.map casefoldChar = txt "fakesmc.kext"

/-- What has a `get` method. -/
def isDict : Plist → Bool
  | .dict _ => true
  | _ => false

/-- `entry.get("BundlePath", "")`, which has to be a string. -/
def bundlePathOf (entry : Plist) : Option Text :=
  if isDict entry then
    match entry.get ["BundlePath"] with
    | some (.str s) => some s
    | some _ => none
    | none => some []
  else none

/-- The entries without FakeSMC. -/
def dropFakeSmc : List Plist → Option (List Plist)
  | [] => some []
  | entry :: entries => do
    let bundlePath ← bundlePathOf entry
    let kept ← dropFakeSmc entries
    return if isFakeSmc bundlePath then kept else entry :: kept

/-- `entry.get("Path") == PARTITION_DRIVER`. -/
def isPartitionEntry (entry : Plist) : Bool := getStr entry ["Path"] = some partitionDriver

/-- `entry.update(...)`. -/
def enablePartition : Plist → Plist
  | .dict kvs => .dict (dictInsert "LoadEarly" (.bool false) (dictInsert "Enabled" (.bool true)
      (dictInsert "Comment" (.str (txt "QEMU Apple Partition Map support"))
        (dictInsert "Arguments" (.str []) kvs))))
  | d => d

/-- The entry for a list without one. -/
def partitionEntry : Plist :=
  .dict [("Arguments", .str []), ("Comment", .str (txt "QEMU Apple Partition Map support")),
    ("Enabled", .bool true), ("LoadEarly", .bool false), ("Path", .str partitionDriver)]

/-- The first matching entry comes to the front, the others go.  `drivers.remove(entry)` finds
no other equal dictionary: those that are left have another path. -/
def partitionFirst (drivers : List Plist) : Option (List Plist) :=
  if drivers.all isDict then
    let others := drivers.filter (!isPartitionEntry ·)
    match drivers.find? isPartitionEntry with
    | some entry => some (enablePartition entry :: others)
    | none => some (partitionEntry :: others)
  else none

/-- `main`, up to the file that it writes.  The lists are edited in place, each apart from the
other keys that are assigned. -/
def configure (resolution : Text) (config : Plist) : Option Plist := do
  let kexts ← dropFakeSmc (← getArray config ["Kernel", "Add"])
  let drivers ← partitionFirst (← getArray config ["UEFI", "Drivers"])
  config.writes [(["UEFI", "Output", "Resolution"], .str resolution),
    (["UEFI", "Output", "UIScale"], .int 1),
    (["Kernel", "Add"], .array kexts),
    (["Booter", "Quirks", "AllowRelocationBlock"], .bool false),
    (["UEFI", "Drivers"], .array drivers)]

/-- The validator accepts a configuration in a staged tree. -/
def acceptsConfig (load : Bytes → Option Info) (t : Tree) (ocRoot : List Text) (config : Plist) :
    Prop :=
  ∃ c ∈ readConfig config, accepts load t ocRoot c

instance (load : Bytes → Option Info) (t : Tree) (ocRoot : List Text) (config : Plist) :
    Decidable (acceptsConfig load t ocRoot config) :=
  inferInstanceAs (Decidable (∃ c ∈ readConfig config, accepts load t ocRoot c))

variable {load : Bytes → Option Info} {t : Tree} {ocRoot esp : List Text} {c : OcConfig}
  {config config' : Plist} {resolution : Text}

/-! ### The lists -/

/-- Of a list that is read, the items with a mark `g` that are kept. -/
theorem mapM_filter {α β : Type} {f : α → Option β} {g q : β → Bool} {p : α → Bool}
    (hpq : ∀ x y, f x = some y → g y = true → p x = q y) {xs : List α} {ys : List β}
    (h : xs.mapM f = some ys) :
    ∃ ys', (xs.filter p).mapM f = some ys' ∧ ys'.filter g = (ys.filter g).filter q := by
  induction xs generalizing ys with
  | nil =>
    obtain rfl : [] = ys := by simpa using h
    exact ⟨[], rfl, rfl⟩
  | cons x xs ih =>
    simp only [List.mapM_cons, Option.bind_eq_bind, Option.bind_eq_some_iff, Option.pure_def,
      Option.some.injEq] at h
    obtain ⟨y, hy, ys₁, hys, rfl⟩ := h
    obtain ⟨ys', hys', hfilter⟩ := ih hys
    cases hp : p x with
    | false =>
      refine ⟨ys', by rw [List.filter_cons_of_neg (by simp [hp]), hys'], ?_⟩
      -- an item that goes has no mark, or is not among those to be kept
      cases hg : g y with
      | false => rw [hfilter, List.filter_cons_of_neg (by simp [hg])]
      | true =>
        have hq : q y = false := (hpq x y hy hg).symm.trans hp
        rw [hfilter, List.filter_cons_of_pos hg, List.filter_cons_of_neg (by simp [hq])]
    | true =>
      refine ⟨y :: ys', ?_, ?_⟩
      · rw [List.filter_cons_of_pos hp]
        simp [List.mapM_cons, hy, hys']
      · cases hg : g y with
        | false => rw [List.filter_cons_of_neg (by simp [hg]), hfilter,
            List.filter_cons_of_neg (by simp [hg])]
        | true =>
          have hq : q y = true := (hpq x y hy hg).symm.trans hp
          rw [List.filter_cons_of_pos hg, hfilter, List.filter_cons_of_pos hg,
            List.filter_cons_of_pos hq]

theorem readKextEntry_enabled {d : Plist} {e : KextEntry} (h : readKextEntry d = some e)
    (he : e.enabled = true) : getStr d ["BundlePath"] = some e.bundlePath := by
  simp only [readKextEntry, Option.bind_eq_bind, Option.bind_eq_some_iff] at h
  obtain ⟨b, -, h⟩ := h
  cases b with
  | false =>
    obtain rfl := Option.some.inj h
    cases he
  | true =>
    simp only [if_true, Option.bind_eq_some_iff, Option.pure_def, Option.some.injEq] at h
    obtain ⟨bundlePath, hb, -, -, -, -, rfl⟩ := h
    exact hb

theorem readPathEntry_enabled {d : Plist} {e : PathEntry} (h : readPathEntry d = some e)
    (he : e.enabled = true) : getStr d ["Path"] = some e.path := by
  simp only [readPathEntry, Option.bind_eq_bind, Option.bind_eq_some_iff] at h
  obtain ⟨b, -, h⟩ := h
  cases b with
  | false =>
    obtain rfl := Option.some.inj h
    cases he
  | true =>
    simp only [if_true, Option.bind_eq_some_iff, Option.pure_def, Option.some.injEq] at h
    obtain ⟨path, hp, rfl⟩ := h
    exact hp

theorem isDict_of_getStr {d : Plist} {k : String} {x : Text} (h : getStr d [k] = some x) :
    isDict d = true := by
  obtain ⟨kvs, -, rfl, -, -⟩ := Plist.get_cons_eq_some.1 (getStr_eq_some.1 h)
  rfl

theorem dropFakeSmc_eq {kexts kept : List Plist} (h : dropFakeSmc kexts = some kept) :
    kept = kexts.filter fun d => !((bundlePathOf d).any isFakeSmc) := by
  induction kexts generalizing kept with
  | nil => simpa [dropFakeSmc] using h.symm
  | cons d kexts ih =>
    simp only [dropFakeSmc, Option.bind_eq_bind, Option.bind_eq_some_iff, Option.pure_def,
      Option.some.injEq] at h
    obtain ⟨bundlePath, hb, kept', hk', rfl⟩ := h
    rw [ih hk']
    cases hf : isFakeSmc bundlePath <;> simp [hb, hf]

/-- The enabled kexts that are kept are the ones that are not FakeSMC. -/
theorem mapM_dropFakeSmc {kexts kept : List Plist} {es : List KextEntry}
    (hk : dropFakeSmc kexts = some kept) (he : kexts.mapM readKextEntry = some es) :
    ∃ es', kept.mapM readKextEntry = some es' ∧
      es'.filter (·.enabled) = (es.filter (·.enabled)).filter fun e => !isFakeSmc e.bundlePath := by
  rw [dropFakeSmc_eq hk]
  refine mapM_filter (fun d e hd hen => ?_) he
  have hpath := readKextEntry_enabled hd hen
  have hof : bundlePathOf d = some e.bundlePath := by
    rw [bundlePathOf, if_pos (isDict_of_getStr hpath), getStr_eq_some.1 hpath]
  rw [hof, Option.any_some]

theorem readPathEntry_partition {d : Plist} (h : isPartitionEntry d = true) :
    readPathEntry (enablePartition d) = some ⟨true, partitionDriver⟩ := by
  have hpath : getStr d ["Path"] = some partitionDriver := of_decide_eq_true h
  obtain ⟨kvs, x, rfl, hx, hget⟩ := Plist.get_cons_eq_some.1 (getStr_eq_some.1 hpath)
  have hpath' : getStr (enablePartition (.dict kvs)) ["Path"] = some partitionDriver := by
    rw [getStr_eq_some, Plist.get_cons_eq_some]
    refine ⟨_, x, rfl, ?_, hget⟩
    -- none of the four keys is the path
    rw [lookup_dictInsert_ne (by decide), lookup_dictInsert_ne (by decide),
      lookup_dictInsert_ne (by decide), lookup_dictInsert_ne (by decide), hx]
  have hen : isEnabled (enablePartition (.dict kvs)) = some true := by
    simp [enablePartition, isEnabled, getBool, Plist.get, lookup_dictInsert_ne,
      lookup_dictInsert_self, truthy]
  simp [readPathEntry, hen, hpath']

/-- The enabled drivers that are kept follow the partition driver. -/
theorem mapM_partitionFirst {drivers drivers' : List Plist} {es : List PathEntry}
    (hd : partitionFirst drivers = some drivers') (he : drivers.mapM readPathEntry = some es) :
    ∃ es', drivers'.mapM readPathEntry = some es' ∧
      es'.filter (·.enabled) = ⟨true, partitionDriver⟩ ::
        (es.filter (·.enabled)).filter fun e => e.path ≠ partitionDriver := by
  obtain ⟨es₁, hes₁, hfilter⟩ := mapM_filter (g := (·.enabled))
    (q := fun e => e.path ≠ partitionDriver) (p := (!isPartitionEntry ·)) (fun d e hd hen => by
      rw [isPartitionEntry, readPathEntry_enabled hd hen]
      simp) he
  have hfront : ∀ entry, readPathEntry entry = some ⟨true, partitionDriver⟩ →
      ∃ es', (entry :: drivers.filter (!isPartitionEntry ·)).mapM readPathEntry = some es' ∧
        es'.filter (·.enabled) = ⟨true, partitionDriver⟩ ::
          (es.filter (·.enabled)).filter fun e => e.path ≠ partitionDriver := by
    intro entry hentry
    refine ⟨⟨true, partitionDriver⟩ :: es₁, ?_, ?_⟩
    · simp [List.mapM_cons, hentry, hes₁]
    · rw [List.filter_cons_of_pos rfl, hfilter]
  unfold partitionFirst at hd
  split at hd
  · split at hd
    · next entry hfind =>
      obtain rfl := Option.some.inj hd
      exact hfront _ (readPathEntry_partition (List.find?_some hfind))
    · obtain rfl := Option.some.inj hd
      exact hfront _ rfl
  · cases hd

/-! ### The configuration -/

/-- The keys that are assigned. -/
def assigned : List (List String) :=
  [["UEFI", "Output", "Resolution"], ["UEFI", "Output", "UIScale"], ["Kernel", "Add"],
    ["Booter", "Quirks", "AllowRelocationBlock"], ["UEFI", "Drivers"]]

theorem getItems_of_getArray {d : Plist} {p : List String} {xs : List Plist}
    (h : getArray d p = some xs) : getItems d p = some xs := by
  unfold getArray at h
  split at h
  · next ys hy =>
    obtain rfl := Option.some.inj h
    rw [getItems, hy]
    rfl
  · cases h

/-- Another path than that of the partition driver stays among the drivers. -/
theorem mem_paths_filter {x : Text} {es : List PathEntry} (hx : x ≠ partitionDriver) :
    x ∈ (es.filter fun e => e.path ≠ partitionDriver).map (·.path) ↔ x ∈ es.map (·.path) := by
  simp only [List.mem_map, List.mem_filter, decide_eq_true_eq]
  refine exists_congr fun e => ⟨fun ⟨⟨he, _⟩, hp⟩ => ⟨he, hp⟩, fun ⟨he, hp⟩ => ⟨⟨he, ?_⟩, hp⟩⟩
  rwa [hp]

/-- What the program makes of a configuration that can be read. -/
theorem readConfig_configure (hconf : configure resolution config = some config')
    (hc : readConfig config = some c) :
    ∃ kexts drivers, readConfig config' = some { c with kexts := kexts, drivers := drivers } ∧
      kexts.filter (·.enabled) =
        (c.kexts.filter (·.enabled)).filter (fun e => !isFakeSmc e.bundlePath) ∧
      drivers.filter (·.enabled) = ⟨true, partitionDriver⟩ ::
        (c.drivers.filter (·.enabled)).filter fun e => e.path ≠ partitionDriver := by
  simp only [configure, Option.bind_eq_bind, Option.bind_eq_some_iff] at hconf
  obtain ⟨xs, hxs, kept, hkept, ds, hds, drivers', hdrivers', hw⟩ := hconf
  have hsame : ∀ q, (∀ p ∈ assigned, Plist.apart p q = true) → config'.get q = config.get q :=
    fun q hq => Plist.get_writes_apart hw (by simpa [assigned] using hq)
  have hwritten : ∀ q v, (∀ p ∈ assigned, p = q ∨ Plist.apart p q = true) →
      Plist.written _ q = some v → config'.get q = some v :=
    fun q v hq hv => Plist.get_of_written hw (by simpa [assigned] using hq) hv
  have hstr : ∀ q, (∀ p ∈ assigned, Plist.apart p q = true) → getStr config' q = getStr config q :=
    fun q hq => by rw [getStr, hsame q hq, getStr]
  have hbool : ∀ q, (∀ p ∈ assigned, Plist.apart p q = true) →
      getBool config' q = getBool config q := fun q hq => by rw [getBool, hsame q hq, getBool]
  have hitems : ∀ q, (∀ p ∈ assigned, Plist.apart p q = true) →
      getItems config' q = getItems config q := fun q hq => by rw [getItems, hsame q hq, getItems]
  -- the reads, in their order
  obtain ⟨ds', hds', hc⟩ := Option.bind_eq_some_iff.1 hc
  obtain ⟨drivers, hdrivers, hc⟩ := Option.bind_eq_some_iff.1 hc
  obtain ⟨kernelArch, hka, hc⟩ := Option.bind_eq_some_iff.1 hc
  obtain ⟨minKernel, hmk, hc⟩ := Option.bind_eq_some_iff.1 hc
  obtain ⟨quirks, hq, hc⟩ := Option.bind_eq_some_iff.1 hc
  obtain ⟨acpi₀, ha₀, hc⟩ := Option.bind_eq_some_iff.1 hc
  obtain ⟨acpi, ha, hc⟩ := Option.bind_eq_some_iff.1 hc
  obtain ⟨kexts₀, hk₀, hc⟩ := Option.bind_eq_some_iff.1 hc
  obtain ⟨kexts, hk, hc⟩ := Option.bind_eq_some_iff.1 hc
  obtain ⟨tools₀, ht₀, hc⟩ := Option.bind_eq_some_iff.1 hc
  obtain ⟨tools, ht, hc⟩ := Option.bind_eq_some_iff.1 hc
  obtain ⟨keySupport, h₁, hc⟩ := Option.bind_eq_some_iff.1 hc
  obtain ⟨keySupportMode, h₂, hc⟩ := Option.bind_eq_some_iff.1 hc
  obtain ⟨customKernel, h₃, hc⟩ := Option.bind_eq_some_iff.1 hc
  obtain ⟨virtualMap, h₄, hc⟩ := Option.bind_eq_some_iff.1 hc
  obtain ⟨memoryMap, h₅, hc⟩ := Option.bind_eq_some_iff.1 hc
  obtain ⟨sync, h₆, hc⟩ := Option.bind_eq_some_iff.1 hc
  obtain ⟨unprotector, h₇, hc⟩ := Option.bind_eq_some_iff.1 hc
  obtain ⟨routing, h₈, hc⟩ := Option.bind_eq_some_iff.1 hc
  obtain ⟨bootArgs, h₉, hc⟩ := Option.bind_eq_some_iff.1 hc
  obtain rfl := Option.some.inj hc
  obtain rfl := Option.some.inj (hds'.symm.trans (getItems_of_getArray hds))
  obtain rfl := Option.some.inj (hk₀.symm.trans (getItems_of_getArray hxs))
  obtain ⟨kexts', hk', hkfilter⟩ := mapM_dropFakeSmc hkept hk
  obtain ⟨drivers'', hd', hdfilter⟩ := mapM_partitionFirst hdrivers' hdrivers
  have hdget : getItems config' ["UEFI", "Drivers"] = some drivers' := by
    rw [getItems, hwritten _ _ (by decide) rfl]
    rfl
  have hkget : getItems config' ["Kernel", "Add"] = some kept := by
    rw [getItems, hwritten _ _ (by decide) rfl]
    rfl
  obtain ⟨quirks', hq'⟩ : ∃ q, config'.get ["Booter", "Quirks"] = some q := by
    have hsplit := config'.get_append ["Booter", "Quirks"] ["AllowRelocationBlock"]
    rw [List.cons_append, List.cons_append, List.nil_append,
      hwritten _ _ (by decide) rfl] at hsplit
    obtain ⟨q, hq, -⟩ := Option.bind_eq_some_iff.1 hsplit.symm
    exact ⟨q, hq⟩
  -- the partition driver is not the keyboard driver
  have hps2 : txt "Ps2KeyboardDxe.efi" ∈ (drivers''.filter (·.enabled)).map (·.path) ↔
      txt "Ps2KeyboardDxe.efi" ∈ (drivers.filter (·.enabled)).map (·.path) := by
    have hne : txt "Ps2KeyboardDxe.efi" ≠ partitionDriver := by simp [txt, partitionDriver]
    rw [hdfilter, List.map_cons, List.mem_cons, or_iff_right hne]
    exact mem_paths_filter hne
  refine ⟨kexts', drivers'', ?_, hkfilter, hdfilter⟩
  unfold readConfig
  simp (disch := decide) only [hdget, hkget, hstr, hbool, hitems]
  simp only [Option.bind_eq_bind, Option.bind_some, hka, hmk, hq', ha₀, ha, ht₀, ht, hd', hk',
    decide_eq_decide.2 hps2, h₁, h₂, h₃, h₄, h₅, h₆, h₇, h₈, h₉, Option.pure_def]

/-! ### The verdict -/

/-- Some of the kexts of a valid list are valid unless one of them needs one of the others: the
identifiers are distinct, so nothing else provides it. -/
theorem KextsValid.filter_iff {es : List KextEntry} (h : KextsValid load t ocRoot es)
    (p : KextEntry → Bool) :
    KextsValid load t ocRoot (es.filter p) ↔ ∀ e ∈ es, p e = true →
      ∀ d ∈ e.libraries load t ocRoot, isApple d = false →
        ∀ f ∈ es, p f = false → f.identifier load t ocRoot ≠ d := by
  constructor
  · rintro hv e he hp d hd ha f hf hpf hid
    obtain ⟨e', he', hid'⟩ := hv.satisfied e (List.mem_filter.2 ⟨he, hp⟩) d hd ha
    obtain ⟨he'es, hpe'⟩ := List.mem_filter.1 he'
    obtain rfl : f = e' := List.inj_on_of_nodup_map h.distinct hf he'es (hid.trans hid'.symm)
    rw [hpf] at hpe'
    cases hpe'
  · intro hneeds
    refine ⟨fun e he => h.ok e (List.mem_of_mem_filter he),
      (List.filter_sublist.map _).nodup h.distinct, fun e he d hd ha => ?_⟩
    obtain ⟨hees, hp⟩ := List.mem_filter.1 he
    obtain ⟨f, hf, hid⟩ := h.satisfied e hees d hd ha
    refine ⟨f, List.mem_filter.2 ⟨hf, ?_⟩, hid⟩
    cases hpf : p f with
    | true => rfl
    | false => exact absurd hid (hneeds e hees hp d hd ha f hf hpf)

/-- No enabled kext that is kept needs an enabled one that goes. -/
def FakeSmcUnused (load : Bytes → Option Info) (t : Tree) (ocRoot : List Text) (c : OcConfig) :
    Prop :=
  ∀ e ∈ c.kexts.filter (·.enabled), isFakeSmc e.bundlePath = false →
    ∀ d ∈ e.libraries load t ocRoot, isApple d = false →
      ∀ f ∈ c.kexts.filter (·.enabled), isFakeSmc f.bundlePath = true →
        f.identifier load t ocRoot ≠ d

/-- **The drivers stay valid**, whatever becomes of the kexts. -/
theorem valid_configured {r : Tree} {kexts : List KextEntry} {drivers : List PathEntry}
    (h : Valid load t r esp c)
    (hdriver : t.isFile (subPath (ocDir esp) "Drivers" partitionDriver) = true)
    (hd : drivers.filter (·.enabled) = ⟨true, partitionDriver⟩ ::
      (c.drivers.filter (·.enabled)).filter fun e => e.path ≠ partitionDriver) :
    Valid load t r esp { c with kexts := kexts, drivers := drivers } ↔
      KextsValid load t (ocDir esp) (kexts.filter (·.enabled)) := by
  refine ⟨fun hv => hv.kexts, fun hk => ?_⟩
  -- the new list names the same drivers, apart from the one in front
  have hseen : ∀ x, x ≠ partitionDriver → (x ∈ OcConfig.seenDrivers
      { c with kexts := kexts, drivers := drivers } ↔ x ∈ c.seenDrivers) := by
    intro x hx
    rw [OcConfig.seenDrivers, hd, List.map_cons, List.mem_cons, or_iff_right hx]
    exact mem_paths_filter hx
  refine { h with
    kexts := hk, drivers := fun e he hen => ?_, driversDistinct := ?_
    ps2 := fun hps2 => h.ps2 ((hseen _ (by simp [txt, partitionDriver])).1 hps2)
    leopard := fun hmin => { h.leopard hmin with
      unprotector := (hseen _ (by simp [txt, partitionDriver])).trans
        (h.leopard hmin).unprotector } }
  · have he' : e ∈ drivers.filter (·.enabled) := List.mem_filter.2 ⟨he, hen⟩
    rw [hd] at he'
    rcases List.mem_cons.1 he' with rfl | he'
    · exact hdriver
    · exact h.drivers e (List.mem_of_mem_filter (List.mem_of_mem_filter he')) hen
  · rw [OcConfig.seenDrivers, hd, List.map_cons, List.nodup_cons]
    refine ⟨fun hmem => ?_, (List.filter_sublist.map _).nodup h.driversDistinct⟩
    obtain ⟨e, he, hp⟩ := List.mem_map.1 hmem
    exact of_decide_eq_true (List.mem_filter.1 he).2 hp

/-- A tree with FakeSMC and a plug-in inside it. -/
def fakeSmcTree : Tree :=
  let oc := [txt "EFI", txt "OC"]
  let fakeSmc := oc ++ [txt "Kexts", txt "FakeSMC.kext", txt "Contents"]
  let plugIn := fakeSmc ++ [txt "PlugIns", txt "ACPISensors.kext", txt "Contents"]
  let t := (emptyTree.makeDirs [] (oc ++ [txt "Drivers"])).getD emptyTree
  let t := (t.makeDirs [] plugIn).getD t
  ((t.ensureFile (oc ++ [txt "Drivers"]) partitionDriver []).ensureFile fakeSmc (txt "Info.plist")
    [0]).ensureFile plugIn (txt "Info.plist") [1]

/-- Their `Info.plist` files: the plug-in needs FakeSMC. -/
def fakeSmcInfo : Bytes → Option Info
  | [0] => some ⟨some (txt "org.netkas.FakeSMC"), none, none, []⟩
  | [1] => some ⟨some (txt "org.netkas.driver.ACPISensors"), none, none, [txt "org.netkas.FakeSMC"]⟩
  | _ => none

/-- An enabled kext without executable. -/
def plainKext (bundlePath : String) : Plist :=
  .dict [("BundlePath", .str (txt bundlePath)), ("Enabled", .bool true),
    ("PlistPath", .str (txt "Contents/Info.plist"))]

/-- A configuration with these kexts and nothing else. -/
def plainConfig (kexts : List Plist) : Plist :=
  .dict [("ACPI", .dict [("Add", .array [])]),
    ("Booter", .dict [("Quirks", .dict [("SetupVirtualMap", .bool false)])]),
    ("Kernel", .dict [("Add", .array kexts), ("Emulate", .dict [("MinKernel", .str [])]),
      ("Scheme", .dict [("CustomKernel", .bool false), ("KernelArch", .str (txt "i386"))])]),
    ("Misc", .dict [("Tools", .array [])]),
    ("UEFI", .dict [("Drivers", .array []), ("Output", .dict []),
      ("Quirks", .dict [("RequestBootVarRouting", .bool false)])])]

end Config

end InstallKit
