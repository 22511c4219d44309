import InstallKit.Config.A8Gates
import InstallKit.Config.AsusPatch
import InstallKit.Config.Containment
import InstallKit.Config.CorePatch
import InstallKit.Config.KernelArch
import InstallKit.Config.KextListing
import InstallKit.Config.KextOrder
import InstallKit.Config.QemuLists
import InstallKit.Config.Writers
import InstallKit.Kernel.AtomBytes
import InstallKit.Kernel.AtomConvergence
import InstallKit.Kernel.Inspect
import InstallKit.Kernel.MatchTrace
import InstallKit.Kernel.MatchTraceBuild
import InstallKit.Kernel.QemuImage
import InstallKit.Mac.ProtectedVolumes
import InstallKit.Mac.SafeRemove
import InstallKit.Profiles.CpuInfo
import InstallKit.Profiles.Saving
import InstallKit.Qemu.Machine
import InstallKit.Shell.Returns
import InstallKit.Sources.ReleaseTag
import InstallKit.Usb.BlockRestore
import InstallKit.Usb.Partitions
import InstallKit.Usb.InstallOpenduet
import InstallKit.Usb.LegacyWrites
import InstallKit.Usb.Membership
import InstallKit.Usb.Mounts
import InstallKit.Usb.Preflight
import InstallKit.Usb.Recovery
import InstallKit.Usb.RepairEsp
import InstallKit.Usb.RootGuard
import InstallKit.Usb.UpdateEfi
import InstallKit.Cache.Downloads
import InstallKit.Cache.Extraction
import InstallKit.Profiles.Shown
import InstallKit.Usb.Verify
import InstallKit.Usb.Backups
import InstallKit.Mac.MakeUsb
import InstallKit.Mac.BootRuns
