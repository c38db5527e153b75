import CliInstaller.Installer.Dialogs
import CliInstaller.Installer.MountSteps
import CliInstaller.Installer.ParseConfig

/-!
# A headless run

With `menus` 1 the installer gathers the selections from the settings and applies them. A selection
or a setting that is missing is asked for, and missing means empty; the partitions of the disks are
checked with a message box; and a run that mounts the partitions comes to `exit_done`, which asks
whether to close the installer.

Source: `src/simple_tui.cpp`, `src/tui.cpp`.

## Main definitions

* `gatherUserSelections`, `applyUserSelections`, `menuSimple`, `tuiInit`: the functions
* `NothingAsked`: the documents and the disks with which nothing is asked

## Main results

* `gatherUserSelections_ends`: when gathering the selections opens no dialog
* `applyUserSelections_ends`: when applying them opens none
* `headlessRun_iff`: when a headless run opens none
-/

namespace CliInstaller

open Logging Machines Sorting

/-! ## The functions -/

structure UserSelections where
  serverMode : Bool
  device : Str
  filesystem : Str
  bootloader : Str
  hostname : Str
  locale : Str
  xkbmap : Str
  timezone : Str
  userName : Str
  userPass : Str
  userShell : Str
  rootPass : Str
  kernel : Str
  desktop : Str
  postInstall : Str
  mountOptions : Str
  readyPartitions : List Str
  deriving DecidableEq, Repr

/-- What is answered in `gather_user_selections`; a menu gives the chosen line unless it is
cancelled. -/
structure GatherReplies where
  device : DeviceReplies
  find : FindReplies
  bootloader : Option Nat
  filesystem : Option Nat
  deriving DecidableEq, Repr

/-- A value of the settings, or the one that is selected where it is empty. -/
def orSelect (value : Str) (select : Asking Str) : Asking Str :=
  if value.isEmpty then select else pure value

/-- The file system of the settings, or the one that is selected where it is empty. -/
def targetFilesystem (selected : Option Nat) (fs : FilesystemSettings) :
    Asking FilesystemSettings :=
  if fs.filesystemName.isEmpty then do
    let filesystemName ← selectSimpleFilesystem selected
    pure { fs with fsOpts := some [], filesystemName }
  else pure fs

def gatherUserSelections (replies : GatherReplies) (config : SimpleSettings) (m : MountSettings) :
    Asking (UserSelections × MountSettings) := do
  let device ← orSelect config.device (selectDevice replies.device config.device)
  let list ← availablePartitions replies.find m.system m.list
  let bootloader ← orSelect config.bootloader (selectBootloader replies.bootloader m.system)
  let fs ← targetFilesystem replies.filesystem m.fs
  let fsApplied :=
    if config.readyPartitions.isEmpty then selectFilesystem fs.filesystemName fs else fs
  pure
    ({ serverMode := config.serverMode
       device
       filesystem := fs.filesystemName
       bootloader
       hostname := config.hostname
       locale := config.locale
       xkbmap := config.xkbmap
       timezone := config.timezone
       userName := config.userName
       userPass := config.userPass
       userShell := config.userShell
       rootPass := config.rootPass
       kernel := config.kernel
       desktop := config.de
       postInstall := config.postInstall
       mountOptions := fs.mountOpts
       readyPartitions := config.readyPartitions },
      { m with list, fs := fsApplied })

/-- What is answered in `apply_user_selections`. -/
structure ApplyReplies where
  /-- what is answered while each of the partitions is mounted -/
  prepared : Nat → PreparedStep
  locales : List Str
  timezone : TimezoneReplies
  rootPass : List Entry
  userName : List Entry
  userPass : List Entry
  base : BaseReplies
  /-- the base is installed when the desktop is -/
  baseInstalled : Bool
  check : CheckReplies
  /-- the dialogs of a bootloader that is chosen from a menu -/
  bootloader : List Dialog
  exit : ExitReplies

/-- The dialogs for a value, which are opened where it is empty. -/
def askedFor (value : Str) (dialogs : List Dialog) : List Dialog :=
  if value.isEmpty then dialogs else []

/-- The dialogs between mounting and the end, in their order. -/
def settingDialogs (replies : ApplyReplies) (selections : UserSelections) (system : Str) :
    List Dialog :=
  askedFor selections.hostname setHostnameDialogs ++
    askedFor selections.locale (setLocaleDialogs replies.locales) ++
    askedFor selections.xkbmap setXkbmapDialogs ++
    askedFor selections.timezone (setTimezoneDialogs replies.timezone) ++
    askedFor selections.rootPass (setRootPasswordDialogs replies.rootPass) ++
    askedFor selections.userName (createNewUserDialogs replies.userName replies.userPass) ++
    askedFor selections.kernel (installBaseDialogs replies.base) ++
    (if selections.serverMode then []
      else askedFor selections.desktop (installDesktopDialogs replies.baseInstalled)) ++
    if selections.bootloader.isEmpty then
      chooseBootloaderDialogs replies.check system replies.bootloader
    else installBootloaderDialogs replies.check

section Functions

variable (S : Sorter Partition) (devices : Devices)

/-- The rounds of `make_partitions_prepared`; a fault ends the program. -/
def preparedRounds (prepared : PreparedSettings) :
    List PreparedStep → PreparedRun → Asking PreparedRun
  | [], s => pure s
  | step :: steps, s => do
    let round := (makePartitionsPrepared S devices prepared).step step s
    Logged.tell (preparedDialogs devices prepared step s)
    Logged.ofExcept round.1
    preparedRounds prepared steps round.2

/-- `make_partitions_prepared` with its result. -/
def partitionsArePrepared (prepared : PreparedSettings) (replies : Nat → PreparedStep)
    (readyParts : List Str) (m : MountSettings) : Asking Bool :=
  if readyParts.isEmpty then pure false
  else do
    let _ ← preparedRounds S devices prepared
      (readyParts.mapIdx fun i readyPart => { replies i with readyPart }) (.start m)
    pure true

/-- `apply_user_selections`; its commands are not followed here. -/
def applyUserSelections (replies : ApplyReplies) (selections : UserSelections)
    (m : MountSettings) : Asking Unit := do
  let prepared ← partitionsArePrepared S devices
    ⟨selections.bootloader, selections.filesystem, selections.mountOptions⟩ replies.prepared
    selections.readyPartitions m
  -- Without partitions it only unmounts, and returns.
  if prepared then do
    Logged.tell (settingDialogs replies selections m.system)
    Logged.tell (exitDone replies.exit m.list.mountpoint).1
  else pure ()

/-- What is answered in a run. -/
structure RunReplies where
  gather : GatherReplies
  apply : ApplyReplies
  /-- the chosen kind of installation, unless the menu is cancelled -/
  selected : Option Nat

def menuSimple (replies : RunReplies) (config : SimpleSettings) (m : MountSettings) :
    Asking Unit := do
  let selected ← gatherUserSelections replies.gather config m
  applyUserSelections S devices replies.apply selected.1 selected.2

/-- The settings that are read while partitions are mounted, as the document sets them. -/
def SimpleSettings.written (config : SimpleSettings) (m : MountSettings) : MountSettings :=
  { m with fs := { m.fs with
    filesystemName := config.filesystemName, mountOpts := config.mountOpts } }

/-- `tui::init`, where the advanced menu is given. -/
def tuiInit (replies : RunReplies) (menuAdvanced : Asking Unit) (config : SimpleSettings)
    (m : MountSettings) : Asking Unit :=
  if config.menus = 1 then menuSimple S devices replies config (config.written m)
  else if config.menus = 2 then menuAdvanced
  else do
    Logged.tell [.menu [lit "Simple installation", lit "Advanced installation"] []]
    match replies.selected with
    | some 0 => menuSimple S devices replies config (config.written m)
    | some 1 => menuAdvanced
    | _ => pure ()

end Functions

/-! ## The dialogs of a run -/

/-- There are as many partitions as the system requires: two with UEFI, and one with BIOS. -/
def EnoughPartitions (system : Str) (numberPartitions : Int) : Prop :=
  (system = lit "UEFI" → 2 ≤ numberPartitions) ∧ (system = lit "BIOS" → numberPartitions ≠ 0)

/-- The number of partitions that `find_partitions` counts. -/
def FindReplies.numberPartitions (replies : FindReplies) : Int :=
  int32 (makeMultiline (partitionsTmp replies.lsblk replies.raidPartitionsRaw) true '\n').length

/-- **Nothing is asked**: the partitions array is empty, the device, the file system and the
bootloader are not, and there are enough partitions. -/
structure NothingAsked (doc : Json) (replies : FindReplies) (system : Str) : Prop where
  partitions : doc.member (lit "partitions") = some (.array [])
  device : doc.getString (lit "device") ≠ some []
  fsName : doc.getString (lit "fs_name") ≠ some []
  bootloader : doc.getString (lit "bootloader") ≠ some []
  enough : EnoughPartitions system replies.numberPartitions

theorem partitioningError_eq_none {system : Str} {numberPartitions : Int} :
    partitioningError (lit "part\\|lvm\\|crypt") system numberPartitions = none ↔
      EnoughPartitions system numberPartitions := by
  have hcrypt : lit "part\\|lvm\\|crypt" ≠ lit "part\\|crypt" := by simp [lit_eq]
  have hlvm : lit "part\\|lvm\\|crypt" ≠ lit "part\\|lvm" := by simp [lit_eq]
  rw [partitioningError]
  simp only [hcrypt, hlvm, decide_true, decide_false, Bool.true_and, Bool.false_and,
    Bool.false_eq_true, if_false, ite_eq_right_iff, reduceCtorEq, imp_false, Bool.or_eq_true,
    Bool.and_eq_true, decide_eq_true_eq, not_or, not_and, Int.not_lt]
  exact Iff.rfl

section Gather

variable {replies : GatherReplies} {config : SimpleSettings} {m m' : MountSettings}
  {selections : UserSelections} {log : List Dialog}

/-- The partitions are listed without a dialog iff there are enough. -/
theorem availablePartitions_ends {replies : FindReplies} {system : Str}
    {list list' : PartitionSettings}
    (h : Ends (availablePartitions replies system list) log list') :
    log = [] ↔ EnoughPartitions system replies.numberPartitions := by
  rw [← partitioningError_eq_none]
  simp only [availablePartitions, findPartitions] at h
  rw [FindReplies.numberPartitions]
  split at h
  next hnone => exact iff_of_true (ends_pure.mp h).1 hnone
  next partErrBody hsome =>
    rw [hsome]
    have hwrites : log ≠ [] := (writes_tell (List.cons_ne_nil _ _)).bind _ _ h
    exact iff_of_false hwrites (Option.some_ne_none _)

theorem orSelect_ends {value value' : Str} {select : Asking Str} (hselect : Writes select)
    (h : Ends (orSelect value select) log value') : log = [] ↔ value ≠ [] := by
  rw [ends_ite_iff hselect h, List.isEmpty_iff]

theorem targetFilesystem_ends {selected : Option Nat} {fs fs' : FilesystemSettings}
    (h : Ends (targetFilesystem selected fs) log fs') :
    log = [] ↔ fs.filesystemName ≠ [] := by
  have hwrites : Writes (selectSimpleFilesystem selected) :=
    (writes_tell (List.cons_ne_nil _ _)).bind
  rw [ends_ite_iff hwrites.bind h, List.isEmpty_iff]

/-- **Gathering the selections opens no dialog** iff nothing is missing; the partitions are those
of the settings. -/
theorem gatherUserSelections_ends
    (h : Ends (gatherUserSelections replies config m) log (selections, m')) :
    selections.readyPartitions = config.readyPartitions ∧
      (log = [] ↔ config.device ≠ [] ∧ EnoughPartitions m.system replies.find.numberPartitions ∧
        config.bootloader ≠ [] ∧ m.fs.filesystemName ≠ []) := by
  simp only [gatherUserSelections, ends_bind] at h
  obtain ⟨device, log₁, _, hdevice, ⟨list, log₂, _, hlist, ⟨bootloader, log₃, _, hbootloader,
    ⟨fs, log₄, _, hfs, hrest, rfl⟩, rfl⟩, rfl⟩, rfl⟩ := h
  obtain ⟨rfl, hselections⟩ := ends_pure.mp hrest
  obtain ⟨rfl, -⟩ := Prod.mk.inj hselections
  have hdevices : Writes (selectDevice replies.device config.device) :=
    (writes_tell (List.cons_ne_nil _ _)).bind
  have hbootloaders : Writes (selectBootloader replies.bootloader m.system) :=
    (writes_tell (List.cons_ne_nil _ _)).bind
  refine ⟨rfl, ?_⟩
  rw [List.append_nil, List.append_eq_nil_iff, List.append_eq_nil_iff, List.append_eq_nil_iff,
    orSelect_ends hdevices hdevice, availablePartitions_ends hlist,
    orSelect_ends hbootloaders hbootloader, targetFilesystem_ends hfs]

end Gather

/-- **Applying the selections opens no dialog** iff there are no partitions. -/
theorem applyUserSelections_ends {S : Sorter Partition} {devices : Devices}
    {replies : ApplyReplies} {selections : UserSelections} {m : MountSettings} {log : List Dialog}
    (h : Ends (applyUserSelections S devices replies selections m) log ()) :
    log = [] ↔ selections.readyPartitions = [] := by
  obtain ⟨prepared, log₁, log₂, hprepared, hrest, rfl⟩ := ends_bind.mp h
  rw [partitionsArePrepared] at hprepared
  split_ifs at hprepared with hempty
  · obtain ⟨rfl, rfl⟩ := ends_pure.mp hprepared
    rw [if_neg Bool.false_ne_true] at hrest
    exact iff_of_true (ends_pure.mp hrest).1 (List.isEmpty_iff.mp hempty)
  · obtain ⟨_, _, _, -, hpure, -⟩ := ends_bind.mp hprepared
    obtain ⟨-, rfl⟩ := ends_pure.mp hpure
    rw [if_pos rfl] at hrest
    have hwrites : log₂ ≠ [] := Writes.bind_right
      (fun _ => writes_tell (exitDone_ne_nil replies.exit m.list.mountpoint)) _ _ hrest
    exact iff_of_false (List.append_ne_nil_of_right_ne_nil log₁ hwrites)
      fun hnil => hempty (List.isEmpty_iff.mpr hnil)

/-- **A headless run to its end opens no dialog** iff nothing is asked. -/
theorem headlessRun_iff (S : Sorter Partition) (devices : Devices) (replies : RunReplies)
    (menuAdvanced : Asking Unit) (m : MountSettings) {doc : Json} {config : SimpleSettings}
    {dialogs : List Dialog} (haccepted : parseConfig (some doc) .initial = .ok config)
    (hheadless : config.headlessMode = true) (hmenus : config.menus = 1)
    (hends : Ends (tuiInit S devices replies menuAdvanced config m) dialogs ()) :
    dialogs = [] ↔ NothingAsked doc replies.gather.find m.system := by
  obtain ⟨hdevice, hfsName, hbootloader, hpartitions⟩ := parseConfig_headless haccepted hheadless
  rw [tuiInit, if_pos hmenus] at hends
  obtain ⟨⟨selections, m'⟩, log₁, log₂, hgather, happly, rfl⟩ := ends_bind.mp hends
  obtain ⟨hready, hgather⟩ := gatherUserSelections_ends hgather
  have hwritten : (config.written m).fs.filesystemName = config.filesystemName := rfl
  rw [List.append_eq_nil_iff, hgather, applyUserSelections_ends happly, hready, hpartitions,
    hwritten]
  constructor
  · rintro ⟨⟨hd, henough, hb, hf⟩, hp⟩
    exact ⟨hp, by simpa [hdevice] using hd, by simpa [hfsName] using hf,
      by simpa [hbootloader] using hb, henough⟩
  · rintro ⟨hp, hd, hf, hb, henough⟩
    rw [hdevice, Ne, Option.some.injEq] at hd
    rw [hfsName, Ne, Option.some.injEq] at hf
    rw [hbootloader, Ne, Option.some.injEq] at hb
    exact ⟨⟨hd, henough, hb, hf⟩, hp⟩

/-- A document with every member of a headless run. -/
def headlessSettings (partitions : List Json) : Json :=
  .object [(lit "menus", .number 1), (lit "headless_mode", .bool true),
    (lit "device", .string (lit "/dev/sda")), (lit "fs_name", .string (lit "btrfs")),
    (lit "partitions", .array partitions), (lit "hostname", .string (lit "cachyos")),
    (lit "locale", .string (lit "en_US")), (lit "xkbmap", .string (lit "us")),
    (lit "timezone", .string (lit "America/New_York")),
    (lit "user_name", .string (lit "testuser")), (lit "user_pass", .string (lit "test")),
    (lit "user_shell", .string (lit "/bin/bash")), (lit "root_pass", .string (lit "secure")),
    (lit "kernel", .string (lit "linux-cachyos")), (lit "desktop", .string (lit "kde")),
    (lit "bootloader", .string (lit "systemd-boot"))]

/-- The settings that it sets, with the strings of its partitions. -/
def headlessConfig (readyPartitions : List Str) : SimpleSettings where
  menus := 1
  headlessMode := true
  serverMode := false
  device := lit "/dev/sda"
  filesystemName := lit "btrfs"
  readyPartitions
  mountOpts := []
  hostname := lit "cachyos"
  locale := lit "en_US"
  xkbmap := lit "us"
  timezone := lit "America/New_York"
  userName := lit "testuser"
  userPass := lit "test"
  userShell := lit "/bin/bash"
  rootPass := lit "secure"
  kernel := lit "linux-cachyos"
  de := lit "kde"
  bootloader := lit "systemd-boot"
  postInstall := []

/-- Two partitions are found, each is mounted, and the base is installed; the user closes the
installer at the end. -/
def headlessReplies (part : ReadyPartition) : RunReplies where
  gather :=
    { device := ⟨[], none⟩, find := ⟨lit "/dev/sda1 450G\n/dev/sda2 512M", [], [], none⟩,
      bootloader := none, filesystem := none }
  apply :=
    { prepared := fun _ => .keep part
      locales := []
      timezone := ⟨[], [], [], []⟩
      rootPass := []
      userName := []
      userPass := []
      base := ⟨false, false, 0, none⟩
      baseInstalled := true
      check := ⟨true, true⟩
      bootloader := []
      exit := ⟨[], true⟩ }
  selected := none

/-- A btrfs root. -/
def headlessRoot : ReadyPartition := ⟨lit "/dev/sda1", ['/'], lit "450G", lit "btrfs", lit "root"⟩

theorem headlessRun_iff_noPartitions :
    ([] : List Dialog) = [] ↔
      NothingAsked (headlessSettings []) (headlessReplies headlessRoot).gather.find (lit "UEFI") :=
  headlessRun_iff .stable plainDevices (headlessReplies headlessRoot) (pure ()) twoPartitions
    (by decide +kernel : parseConfig _ _ = .ok (headlessConfig [])) rfl rfl (by decide +kernel)

/-- The installation of a root partition ends with two questions. -/
theorem headlessRun_root :
    ∃ config dialogs,
      parseConfig (some (headlessSettings [.object [(lit "name", .string (lit "/dev/sda1")),
          (lit "mountpoint", .string ['/']), (lit "size", .string (lit "450G")),
          (lit "type", .string (lit "root"))]])) .initial = .ok config ∧
        config.headlessMode = true ∧ config.menus = 1 ∧
        Ends (tuiInit .stable plainDevices (headlessReplies headlessRoot) (pure ()) config
          twoPartitions) dialogs () ∧
        dialogs ≠ [] :=
  ⟨headlessConfig [headlessRoot.encode],
    (exitDone ⟨[], true⟩ (lit "/mnt")).1, by decide +kernel, rfl, rfl, by decide +kernel,
    exitDone_ne_nil _ _⟩

end CliInstaller
