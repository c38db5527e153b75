import CliInstaller.Installer.MountPartitions
import CliInstaller.Installer.ReadyPartitions

/-!
# Mounting the prepared partitions

`make_partitions_prepared` mounts the partitions of the settings, one string after the other, and
appends each to the partition schema. It is a machine too: each input is a string, with what the
commands answer. The root partition is mounted like an additional one here, and the LUKS settings
are never reset.

Source: `src/simple_tui.cpp`.

## Main definitions

* `PreparedSettings`: what is the same for all partitions
* `PreparedStep`: a string, with the answers
* `bootPart`, `mountedPart`, `preparedSubvolumes`: the branches of the loop
* `makePartitionsPrepared`: the machine
-/

namespace CliInstaller

open Machines Sorting

/-- The arguments of `make_partitions_prepared`. -/
structure PreparedSettings where
  bootloader : Str
  rootFs : Str
  mountOptsInfo : Str
  deriving DecidableEq, Repr

/-- A string of the prepared partitions, with what is answered while it is mounted. -/
structure PreparedStep where
  readyPart : Str
  current : CurrentReplies
  /-- the mount command of a boot partition succeeds -/
  bootMounted : Bool
  /-- the file system of a boot partition -/
  bootFs : Str
  partUuid : Str
  cryptroot : CryptrootReplies
  cryptboot : CryptbootReplies
  /-- the subvolumes that are found on the root -/
  subvolumes : Str
  subvolume : SubvolumeReplies
  /-- the partition is an LVM volume -/
  isBootLvm : Bool
  deriving DecidableEq, Repr

def bootloaderDefaultMount (bootloader biosMode : Str) : Str :=
  if bootloader = lit "systemd-boot" || bootloader = lit "limine" || biosMode = lit "BIOS" then
    lit "/boot"
  else if bootloader = lit "grub" || bootloader = lit "refind" then lit "/boot/efi"
  else lit "unknown bootloader"

/-- `make_esp` of the simple interface; the outcome of the mount command is not looked at. -/
def makeEspPrepared (step : PreparedStep) (partName bootloaderName bootPartMountpoint : Str)
    (m : Mounting) : Mounting :=
  if m.settings.system ≠ lit "UEFI" then m
  else
    let uefiMount :=
      if bootPartMountpoint = lit "(empty)" then
        bootloaderDefaultMount bootloaderName m.settings.system
      else bootPartMountpoint
    let partMountpoint := m.settings.list.mountpoint ++ uefiMount
    let mounts := if step.bootMounted then m.mounts ++ [⟨partName, partMountpoint, []⟩] else m.mounts
    let bootPartStruct := { Partition.empty with
      fstype := step.bootFs, mountpoint := uefiMount, device := partName,
      mountOpts := lit "defaults", uuidStr := step.partUuid }
    { m with
      settings := { m.settings with
        list := { m.settings.list with partition := partName }, uefiMount, uefiPart := partName }
      mounts }.append bootPartStruct

/-- A boot partition, then the crypt devices. -/
def bootPart (prepared : PreparedSettings) (step : PreparedStep) (part : ReadyPartition)
    (m : Mounting) : Mounting :=
  let m := { m with settings := { m.settings with
    uefiMount := part.mountpoint, uefiPart := part.name } }
  let m := makeEspPrepared step part.name prepared.bootloader part.mountpoint m
  { m with settings := { m.settings with
    crypt := getCryptboot step.cryptboot (getCryptroot step.cryptroot m.settings.crypt) } }

/-- The partition that is appended for a root or an additional partition. -/
def preparedPartition (prepared : PreparedSettings) (step : PreparedStep) (part : ReadyPartition)
    (crypt : CryptSettings) : Partition :=
  { Partition.empty with
    fstype := part.fs
    mountpoint := part.mountpoint
    device := part.name
    mountOpts := prepared.mountOptsInfo
    uuidStr := step.partUuid
    luksMapperName := nonEmpty crypt.luksName
    luksUuid := nonEmpty crypt.luksUuid }

/-- A root or an additional partition with the file system is mounted and appended. -/
def mountedPart (devices : Devices) (prepared : PreparedSettings) (step : PreparedStep)
    (part : ReadyPartition) (fileSys : Str) (m : Mounting) : Except Fault Mounting := do
  let settings := { m.settings with
    list := { m.settings.list with partition := part.name }
    mount := part.mountpoint
    fs := selectFilesystem fileSys m.settings.fs }
  let m ← mountCurrentPartition devices step.current true { m with settings }
  return m.append (preparedPartition prepared step part m.settings.crypt)

/-- One round of the loop, up to the subvolumes. -/
def preparedPart (devices : Devices) (prepared : PreparedSettings) (step : PreparedStep)
    (part : ReadyPartition) (m : Mounting) : Except Fault Mounting :=
  if part.type = lit "boot" then .ok (bootPart prepared step part m)
  else if part.type = lit "root" then
    mountedPart devices prepared step part prepared.rootFs
      { m with settings := { m.settings with rootPart := part.name } }
  else if part.type = lit "additional" then do
    let m ← mountedPart devices prepared step part part.fs m
    return { m with settings := { m.settings with
      lvmSepBoot := lvmSepBootAt part.mountpoint step.isBootLvm m.settings.lvmSepBoot } }
  else .ok m

/-- The subvolumes of a btrfs root are mounted or created. -/
def preparedSubvolumes (S : Sorter Partition) (prepared : PreparedSettings) (step : PreparedStep)
    (part : ReadyPartition) (partitions : List Partition) : Except Fault (List Partition) :=
  if part.type = lit "root" && prepared.rootFs = lit "btrfs" then
    if !step.subvolumes.isEmpty then mountExistingSubvols S step.subvolume partitions
    else btrfsCreateSubvols S step.subvolume (lit "automatic") true partitions
  else .ok partitions

/-- A run of `make_partitions_prepared`. -/
structure PreparedRun extends Mounting where
  /-- a fault ended the program -/
  stopped : Bool
  deriving DecidableEq, Repr

/-- The subvolumes come after the root partition was appended. -/
def PreparedRun.withSubvolumes (m : Mounting) :
    Except Fault (List Partition) → Except Fault Unit × PreparedRun
  | .ok schema => (.ok (), ⟨{ m with schema }, false⟩)
  | .error fault => (.error fault, ⟨m, true⟩)

/-- **The loop of `make_partitions_prepared`**, one string each step; after a fault nothing more
happens. -/
def makePartitionsPrepared (S : Sorter Partition) (devices : Devices)
    (prepared : PreparedSettings) : Machine PreparedRun PreparedStep (Except Fault Unit) where
  step step s :=
    if s.stopped then (.ok (), s)
    else
      match partInfo step.readyPart with
      | .error fault => (.error fault, { s with stopped := true })
      | .ok part =>
        match preparedPart devices prepared step part s.toMounting with
        | .error fault => (.error fault, { s with stopped := true })
        | .ok m => PreparedRun.withSubvolumes m
          (preparedSubvolumes S prepared step part m.schema)

/-- The state before the first string. -/
def PreparedRun.start (settings : MountSettings) : PreparedRun := ⟨⟨settings, [], [], []⟩, false⟩

/-- The string of a partition that is mounted, on a system without crypt devices; no subvolumes are
found. -/
def PreparedStep.keep (part : ReadyPartition) : PreparedStep where
  readyPart := part.encode
  current := ⟨⟨false, none, false⟩, ⟨true, true, []⟩, true⟩
  bootMounted := true
  bootFs := lit "vfat"
  partUuid := []
  cryptroot := ⟨false, [], false, [], [], [], [], [], [], []⟩
  cryptboot := ⟨false, false, [], [], [], [], false⟩
  subvolumes := []
  subvolume := ⟨some 0, none, [], true, []⟩
  isBootLvm := false

end CliInstaller
