import CliInstaller.Installer.CryptDevices
import CliInstaller.Installer.PartitionList
import CliInstaller.Installer.SelectFilesystem
import CliInstaller.Installer.Subvolumes

/-!
# Mounting the partitions

`mount_partitions` asks for the root partition, for swap, for any number of additional partitions
and for the boot partition of a UEFI system, mounts what is chosen and appends each to the
partition schema. It is a machine: each input is what the user and the commands answer in one of
these steps.

Source: `src/tui.cpp`, `src/disk.cpp`.

## Main definitions

* `MountSettings`, `Mounting`: the settings, and with them the schema and what is mounted
* `mountPartition`, `mountCurrentPartition`, `mountRootPartition`, `makeEsp`: the functions
* `mountPartitions`: the machine

-/

namespace CliInstaller

open Machines Sorting

/-! ## State -/

/-- The settings that are read and written while partitions are mounted. -/
structure MountSettings where
  list : PartitionSettings
  fs : FilesystemSettings
  crypt : CryptSettings
  system : Str
  /-- `MOUNT`, the mountpoint of the partition that is being mounted -/
  mount : Str
  rootPart : Str
  uefiMount : Str
  uefiPart : Str
  lvmSepBoot : Int
  zfsZpoolNames : List Str
  deriving DecidableEq, Repr

/-- A mount command that succeeded. -/
structure Mount where
  device : Str
  dir : Str
  opts : Str
  deriving DecidableEq, Repr

/-- A function that the boot step calls. -/
inductive BootCall where
  | makeEsp
  | getCryptroot
  | getCryptboot
  deriving DecidableEq, Repr

/-- The settings, the partition schema and the mounts. -/
structure Mounting where
  settings : MountSettings
  schema : List Partition
  mounts : List Mount
  /-- the functions of the boot step that were executed -/
  bootCalls : List BootCall
  deriving DecidableEq, Repr

def Mounting.called (m : Mounting) (call : BootCall) : Mounting :=
  { m with bootCalls := m.bootCalls ++ [call] }

def Mounting.append (m : Mounting) (part : Partition) : Mounting :=
  { m with schema := m.schema ++ [part] }

/-- What is left of a partition after `std::move`: its strings are empty. -/
def Partition.movedFrom (part : Partition) : Partition :=
  { Partition.empty with
    subvolume := part.subvolume.map fun _ => []
    luksMapperName := part.luksMapperName.map fun _ => []
    luksUuid := part.luksUuid.map fun _ => []
    luksPassphrase := part.luksPassphrase.map fun _ => [] }

/-- A text that becomes an optional field, unless it is empty. -/
def nonEmpty (text : Str) : Option Str := if text.isEmpty then none else some text

/-! ## Mounting one partition -/

structure MountReplies where
  /-- the directory is there, or is made -/
  dirMade : Bool
  /-- the mount command succeeds -/
  mounted : Bool
  /-- the device `findmnt` reports -/
  source : Str
  deriving DecidableEq, Repr

/-- `utils::mount_partition`, whose result is only logged. -/
def mountPartition (devices : Devices) (replies : MountReplies)
    (partition mountpoint mountDev mountOpts : Str) (m : Mounting) : Mounting :=
  let mountDir := mountpoint ++ mountDev
  if !replies.dirMade || !replies.mounted then m
  else
    let queryDevice := if replies.source.isEmpty then partition else replies.source
    { m with
      mounts := m.mounts ++ [⟨partition, mountDir, mountOpts⟩]
      settings := { m.settings with
        crypt := { m.settings.crypt with
          toLuksSettings := devices.queryPartition queryDevice m.settings.crypt.toLuksSettings } } }

structure CurrentReplies where
  opts : MountOptsReplies
  mount : MountReplies
  /-- `mount` lists the directory -/
  isMounted : Bool
  deriving DecidableEq, Repr

/-- `mount_current_partition`, whose result is ignored. -/
def mountCurrentPartition (devices : Devices) (replies : CurrentReplies) (force : Bool)
    (m : Mounting) : Except Fault Mounting := do
  let mountpoint := m.settings.list.mountpoint
  let partition := m.settings.list.partition
  let mountOpts ← selectMountOpts m.settings.fs replies.opts force
  let m := { m with settings := { m.settings with fs := { m.settings.fs with mountOpts } } }
  let m := mountPartition devices replies.mount partition mountpoint m.settings.mount mountOpts m
  return { m with settings := { m.settings with
    list := (confirmMount replies.isMounted force m.settings.list).2 } }

/-! ## Root -/

structure RootReplies where
  /-- the ZFS pool is imported -/
  zfsImported : Bool
  /-- the file system at the mountpoint before -/
  rootFilesystem : Str
  /-- the chosen line of the partitions, if the menu is not cancelled -/
  selected : Option Nat
  /-- the chosen line of the file systems, if the menu is not cancelled -/
  fsSelected : Option Nat
  opts : MountOptsReplies
  /-- formatting is agreed to -/
  doFormat : Bool
  /-- the format command succeeds -/
  formatted : Bool
  mount : MountReplies
  /-- the file system at the mountpoint after mounting -/
  mountFstype : Str
  partUuid : Str
  /-- the subvolumes that are found on the root -/
  subvolumes : Str
  /-- setting up the subvolumes is agreed to -/
  doSubvolumes : Bool
  subvolume : SubvolumeReplies
  deriving DecidableEq, Repr

/-- `RootPartitionSelection`; formatting is requested where there is a command. -/
structure RootSelection where
  device : Str
  fstype : Str
  mkfsCommand : Str
  mountOpts : Str
  deriving DecidableEq, Repr

def selectRootPartitionInfo (replies : RootReplies) (settings : MountSettings) :
    Except Fault (Option RootSelection × MountSettings) :=
  match replies.selected with
  | none => .ok (none, settings)
  | some selected => do
    let device ← menuAnswer settings.list.partitions selected
    let settings := { settings with
      list := { settings.list with partition := device }, rootPart := device, mount := [] }
    match ← selectFsAndCmd replies.fsSelected with
    | none => return (none, settings)
    | some (fstype, mkfsCommand) =>
      if fstype = lit "skip" then
        return (some ⟨device, fstype, mkfsCommand, lit "defaults"⟩, settings)
      let mountOpts ← selectMountOpts settings.fs replies.opts false
      return (some ⟨device, fstype, mkfsCommand, mountOpts⟩, settings)

/-- The file system that is recorded for the root. -/
def rootFstype (replies : RootReplies) (selection : RootSelection) : Str :=
  if replies.mountFstype.isEmpty then
    if selection.fstype = lit "skip" then lit "unknown" else selection.fstype
  else replies.mountFstype

/-- The root partition, with the LUKS data of the settings. -/
def rootPartition (replies : RootReplies) (selection : RootSelection) (crypt : CryptSettings) :
    Partition :=
  { Partition.empty with
    fstype := rootFstype replies selection
    mountpoint := ['/']
    device := selection.device
    mountOpts := selection.mountOpts
    uuidStr := replies.partUuid
    luksMapperName := if crypt.isLuks ≠ 0 then nonEmpty crypt.luksName else none
    luksUuid := if crypt.isLuks ≠ 0 then nonEmpty crypt.luksUuid else none }

/-- The subvolumes of a btrfs root are mounted or created. -/
def rootSubvolumes (S : Sorter Partition) (replies : RootReplies) (partitions : List Partition) :
    Except Fault (List Partition) :=
  if !replies.doSubvolumes then .ok partitions
  else if !replies.subvolumes.isEmpty then mountExistingSubvols S replies.subvolume partitions
  else btrfsSubvolumes S replies.subvolume partitions

/-- `apply_root_partition_actions`. The file system is compared after the partition was moved into
the schema. -/
def applyRootPartitionActions (S : Sorter Partition) (devices : Devices) (replies : RootReplies)
    (selection : RootSelection) (m : Mounting) : Except Fault (Bool × Mounting) :=
  if !selection.mkfsCommand.isEmpty && (!replies.doFormat || !replies.formatted) then .ok (false, m)
  else do
    let m := { m with settings := { m.settings with
      crypt := { m.settings.crypt with toLuksSettings := LuksSettings.reset } } }
    let mountpoint := m.settings.list.mountpoint
    let m := mountPartition devices replies.mount selection.device mountpoint mountpoint
      selection.mountOpts m
    let rootPartStruct := rootPartition replies selection m.settings.crypt
    let m := m.append rootPartStruct
    let rootPartStruct := rootPartStruct.movedFrom
    if rootPartStruct.fstype = lit "btrfs" then
      let schema ← rootSubvolumes S replies m.schema
      return (true, { m with schema })
    return (true, m)

def mountRootPartition (S : Sorter Partition) (devices : Devices) (replies : RootReplies)
    (m : Mounting) : Except Fault (Bool × Mounting) :=
  if !m.settings.zfsZpoolNames.isEmpty then .ok (replies.zfsImported, m)
  else if replies.rootFilesystem = lit "zfs" then .ok (true, m)
  else do
    let (selection, settings) ← selectRootPartitionInfo replies m.settings
    let m := { m with settings }
    match selection with
    | none => return (false, m)
    | some selection => applyRootPartitionActions S devices replies selection m

/-! ## The boot partition -/

structure EspReplies where
  /-- the chosen line of the partitions, if the menu is not cancelled -/
  selected : Option Nat
  /-- the chosen mountpoint, if the list is not cancelled -/
  mountSelected : Option Nat
  /-- the mount command succeeds -/
  mounted : Bool
  /-- `mount` lists the directory -/
  isMounted : Bool
  partFs : Str
  partUuid : Str
  cryptroot : CryptrootReplies
  cryptboot : CryptbootReplies
  deriving DecidableEq, Repr

def espMountpoints : List Str := [lit "/boot/efi", lit "/boot"]

/-- `make_esp`; the outcome of the mount command is not looked at. -/
def makeEsp (replies : EspReplies) (m : Mounting) : Except Fault Mounting :=
  let m := m.called .makeEsp
  if m.settings.system ≠ lit "UEFI" then .ok m
  else
    match replies.selected with
    | none => .ok m
    | some selected => do
      let answer ← menuAnswer m.settings.list.partitions selected
      let settings := { m.settings with
        list := { m.settings.list with partition := answer }, uefiMount := [], uefiPart := answer }
      match replies.mountSelected with
      | none => return { m with settings }
      | some mountSelected =>
        match espMountpoints[mountSelected]? with
        | none => throw .indexPastEnd
        | some uefiMount =>
          let partMountpoint := settings.list.mountpoint ++ uefiMount
          let mounts :=
            if replies.mounted then m.mounts ++ [⟨answer, partMountpoint, []⟩] else m.mounts
          let list := (confirmMount replies.isMounted false settings.list).2
          let bootPartStruct := { Partition.empty with
            fstype := replies.partFs, mountpoint := uefiMount, device := answer,
            mountOpts := lit "defaults", uuidStr := replies.partUuid }
          return { m with settings := { settings with list, uefiMount }, mounts }.append
            bootPartStruct

/-! ## The machine -/

/-- What `mount_partitions` does next. -/
inductive Phase where
  | root
  | swap
  | additional
  | esp
  | finished
  deriving DecidableEq, Repr

structure AdditionalReplies where
  /-- the chosen line, if the menu is not cancelled -/
  selected : Option Nat
  /-- the chosen line of the file systems, if the menu is not cancelled -/
  fsSelected : Option Nat
  /-- the mountpoints that are entered before the box is cancelled -/
  mountpoints : List Str
  current : CurrentReplies
  partFs : Str
  partUuid : Str
  /-- the partition is an LVM volume -/
  isBootLvm : Bool
  deriving DecidableEq, Repr

/-- The mountpoint is not only a slash, begins with one and has no space. -/
def validMountpoint (mountDev : Str) : Bool :=
  1 < mountDev.length && mountDev.head? = some '/' && !contains mountDev (lit " ")

/-- A step of `mount_partitions`, with what is answered in it. -/
inductive MountStep where
  | root (replies : RootReplies)
  | swap (replies : SwapReplies)
  | additional (replies : AdditionalReplies)
  | esp (replies : EspReplies)
  deriving DecidableEq, Repr

/-- The loop goes on as long as partitions are counted. -/
def loopPhase (m : Mounting) : Phase :=
  if 0 < m.settings.list.numberPartitions then .additional else .finished

def rootStep (S : Sorter Partition) (devices : Devices) (replies : RootReplies) (m : Mounting) :
    Except Fault (Phase × Mounting) := do
  let (mounted, m) ← mountRootPartition S devices replies m
  return (if mounted then .swap else .finished, m)

def swapStep (replies : SwapReplies) (m : Mounting) : Except Fault (Phase × Mounting) := do
  let (swapPartition, list) ← makeSwap replies m.settings.list
  let m := { m with
    settings := { m.settings with list }, schema := m.schema ++ swapPartition.toList }
  return (loopPhase m, m)

/-- The partition that is appended for an additional partition. -/
def additionalPartition (replies : AdditionalReplies) (device : Str) (settings : MountSettings) :
    Partition :=
  { Partition.empty with
    fstype := replies.partFs
    mountpoint := settings.mount
    device
    mountOpts := settings.fs.mountOpts
    uuidStr := replies.partUuid
    luksMapperName := nonEmpty settings.crypt.luksName
    luksUuid := nonEmpty settings.crypt.luksUuid }

/-- `LVM_SEP_BOOT`, once a partition is mounted at `mountDev`. -/
def lvmSepBootAt (mountDev : Str) (isBootLvm : Bool) (lvmSepBoot : Int) : Int :=
  if mountDev = lit "/boot" then if isBootLvm then 2 else 1 else lvmSepBoot

def additionalStep (devices : Devices) (replies : AdditionalReplies) (m : Mounting) :
    Except Fault (Phase × Mounting) :=
  match replies.selected with
  | none => .ok (.finished, m)
  | some selected => do
    let partition ← menuAnswer (lit "Done -" :: m.settings.list.partitions) selected
    let settings := { m.settings with list := { m.settings.list with partition } }
    if partition = lit "Done" then
      return (.esp, { m with settings })
    let (_, fs) ← tuiSelectFilesystem replies.fsSelected settings.fs
    match replies.mountpoints.find? validMountpoint with
    | none =>
      return (.finished, { m with settings :=
        { settings with fs, mount := (replies.mountpoints.getLast?).getD [] } })
    | some mount =>
      let m ← mountCurrentPartition devices replies.current false
        { m with settings := { settings with fs, mount } }
      let partStruct := additionalPartition replies partition m.settings
      let m := { m with settings := { m.settings with
        lvmSepBoot := lvmSepBootAt mount replies.isBootLvm m.settings.lvmSepBoot } }.append
          partStruct
      return (loopPhase m, m)

def Mounting.getCryptroot (replies : CryptrootReplies) (m : Mounting) : Mounting :=
  { m.called .getCryptroot with settings := { m.settings with
    crypt := CliInstaller.getCryptroot replies m.settings.crypt } }

def Mounting.getCryptboot (replies : CryptbootReplies) (m : Mounting) : Mounting :=
  { m.called .getCryptboot with settings := { m.settings with
    crypt := CliInstaller.getCryptboot replies m.settings.crypt } }

/-- The boot partition, then the crypt devices. -/
def espStep (replies : EspReplies) (m : Mounting) : Except Fault (Phase × Mounting) := do
  let m ← makeEsp replies m
  return (.finished, (m.getCryptroot replies.cryptroot).getCryptboot replies.cryptboot)

structure MountRun extends Mounting where
  phase : Phase
  deriving DecidableEq, Repr

/-- The state after a step; a fault ends the program. -/
def MountRun.after (s : MountRun) :
    Except Fault (Phase × Mounting) → Except Fault Unit × MountRun
  | .ok (phase, m) => (.ok (), { m with phase })
  | .error fault => (.error fault, { s with phase := .finished })

namespace MountStep

def phase : MountStep → Phase
  | root _ => .root
  | swap _ => .swap
  | additional _ => .additional
  | esp _ => .esp

/-- What the step does, and the phase after it. -/
def apply (S : Sorter Partition) (devices : Devices) :
    MountStep → Mounting → Except Fault (Phase × Mounting)
  | root replies => rootStep S devices replies
  | swap replies => swapStep replies
  | additional replies => additionalStep devices replies
  | esp replies => espStep replies

end MountStep

/-- **`mount_partitions`**, from where the list of partitions is found; inputs of another step than
the next one are ignored. -/
def mountPartitions (S : Sorter Partition) (devices : Devices) :
    Machine MountRun MountStep (Except Fault Unit) where
  step step s :=
    if step.phase = s.phase then s.after (step.apply S devices s.toMounting) else (.ok (), s)

def MountRun.start (settings : MountSettings) : MountRun := ⟨⟨settings, [], [], []⟩, .root⟩

end CliInstaller
