import CliInstaller.General.Logged
import CliInstaller.Installer.Passwords
import CliInstaller.Installer.PartitionsPrepared

/-!
# The dialogs of the simple interface

A dialog blocks until the user closes it. The functions below are those that open one while
`menu_simple` runs: the menus of the missing selections, the boxes of the missing settings, and the
questions at the end. None of them looks at the mode of the run. An info box does not block, and is
no dialog; the commands that a headless run does not follow on the screen open none.

Source: `src/widgets.cpp`, `src/tui.cpp`, `src/utils.cpp`, `src/disk.cpp`, `src/simple_tui.cpp`.

## Main definitions

* `Dialog`, `Asking`: a dialog, and a computation that opens dialogs
* `selectDevice`, `selectBootloader`, `selectSimpleFilesystem`, `availablePartitions`: the dialogs
  before the partitions are mounted
* `setHostnameDialogs`, `setRootPasswordDialogs`, `createNewUserDialogs`, `installBaseDialogs` and
  the like: the dialogs of the missing settings
* `exitDone`: the questions at the end

## Main results

* `exitDone_ne_nil`: a question is always asked at the end
-/

namespace CliInstaller

open Logging

/-- A widget that blocks, with the entries and the text it shows. -/
inductive Dialog where
  | menu (entries : List Str) (text : Str)
  | radiolist (entries : List Str) (text : Str)
  | checklist (opts : List Str) (text : Str)
  | inputbox (content : Str)
  | yesno (content : Str)
  | msgbox (content : Str)
  deriving DecidableEq, Repr

/-- A computation that opens dialogs; it ends unless a fault ends the program. -/
abbrev Asking (α : Type) := Logged Dialog Fault α

/-! ## Missing selections -/

/-- What the user and the commands answer in `select_device`. -/
structure DeviceReplies where
  /-- the disks, one a line -/
  devices : Str
  /-- the chosen line, if the menu is not cancelled -/
  selected : Option Nat
  deriving DecidableEq, Repr

/-- `tui::select_device`, with the value of `DEVICE` after it. -/
def selectDevice (replies : DeviceReplies) (device : Str) : Asking Str := do
  let devicesList := makeMultiline replies.devices false '\n'
  Logged.tell [.menu devicesList []]
  match replies.selected with
  | none => pure device
  | some selected => Logged.ofExcept (menuAnswer devicesList selected)

/-- The entry of a menu that is chosen, indexed unchecked; another value if it is cancelled. -/
def chosenEntry (entries : List Str) (cancelled : Str) : Option Nat → Except Fault Str
  | none => .ok cancelled
  | some selected =>
    match entries[selected]? with
    | some entry => .ok entry
    | none => .error .indexPastEnd

def availableBootloaders (biosMode : Str) : List Str :=
  if biosMode = lit "BIOS" then [lit "grub"]
  else [lit "systemd-boot", lit "refind", lit "grub", lit "limine"]

def selectBootloader (selected : Option Nat) (sysInfo : Str) : Asking Str := do
  let menuEntries := availableBootloaders sysInfo
  Logged.tell [.menu menuEntries (lit "\nSelect your bootloader\n")]
  let default := if sysInfo = lit "UEFI" then lit "systemd-boot" else lit "grub"
  Logged.ofExcept (chosenEntry menuEntries default selected)

/-- `select_filesystem` of the simple interface, which is not that of `tui`. -/
def selectSimpleFilesystem (selected : Option Nat) : Asking Str := do
  let menuEntries := [lit "ext4", lit "btrfs", lit "xfs"]
  Logged.tell [.menu menuEntries (lit "\nSelect your filesystem\n")]
  Logged.ofExcept (chosenEntry menuEntries (lit "btrfs") selected)

/-- What the commands answer in `find_partitions`, and the user in `create_partitions`. -/
structure FindReplies where
  lsblk : Str
  raidPartitionsRaw : Str
  /-- the partitions that are shown after automatic partitioning -/
  diskList : Str
  /-- the chosen line of the tools, if the menu is not cancelled -/
  tool : Option Nat
  deriving DecidableEq, Repr

/-- `create_partitions`; the tools run outside of the dialog. -/
def createPartitionsDialogs (replies : FindReplies) : List Dialog :=
  .menu [lit "Securely Wipe Device (optional)", lit "Automatic Partitioning", lit "cfdisk",
    lit "cgdisk", lit "fdisk", lit "gdisk", lit "parted"] [] ::
    if replies.tool = some 1 then [.msgbox replies.diskList] else []

/-- `find_partitions` with its dialogs, for all kinds of partitions. -/
def availablePartitions (replies : FindReplies) (system : Str) (list : PartitionSettings) :
    Asking PartitionSettings := do
  let found := findPartitions (lit "part\\|lvm\\|crypt") system replies.lsblk
    replies.raidPartitionsRaw list
  match found.1 with
  | none => pure found.2
  | some partErrBody => do
    Logged.tell (.msgbox partErrBody :: createPartitionsDialogs replies)
    pure found.2

/-! ## Mounting -/

/-- The boxes of `mount_existing_subvols`: one for each subvolume, until one is cancelled. -/
def mountExistingDialogs (replies : SubvolumeReplies) (partitions : List Partition) :
    List Dialog :=
  if (findRootBtrfsPart partitions).isNone then []
  else
    ((makeMultiline replies.existing false '\n').take (replies.mountpoints.length + 1)).map
      fun subvol => .inputbox <| lit "\nInput mountpoint of\nthe subvolume " ++ subvol ++
        lit "\nas it would appear\nin installed system\n(without prepending /mnt).\n"

/-- The dialogs of one round of `make_partitions_prepared`. -/
def preparedDialogs (devices : Devices) (prepared : PreparedSettings) (step : PreparedStep)
    (s : PreparedRun) : List Dialog :=
  match partInfo step.readyPart with
  | .error _ => []
  | .ok part =>
    match preparedPart devices prepared step part s.toMounting with
    | .error _ => []
    | .ok m =>
      if part.type = lit "root" && prepared.rootFs = lit "btrfs" && !step.subvolumes.isEmpty then
        mountExistingDialogs step.subvolume m.schema
      else []

/-! ## Missing settings -/

/-- `tui::set_hostname` -/
def setHostnameDialogs : List Dialog :=
  [.inputbox <| lit "\nThe hostname is used to identify the system on a network.\n \n" ++
    lit "It is restricted to alphanumeric characters, can contain a hyphen\n" ++
    lit "(-) - but not at the start or end - and must be no longer than 63 characters.\n"]

/-- `tui::set_locale` -/
def setLocaleDialogs (locales : List Str) : List Dialog :=
  [.menu locales <| lit "\nChoose the system language.\n\n" ++
    lit "The format is language_COUNTRY (e.g. en_US is english, United States;\n" ++
    lit "en_GB is english, Great Britain).\n"]

/-- `tui::set_xkbmap` -/
def setXkbmapDialogs : List Dialog :=
  let keymapsXkb := lit "af al am at az ba bd be bg br bt bw by ca cd ch cm cn cz de dk ee es " ++
    lit "et eu fi fo fr gb ge gh gn gr hr hu ie il in iq ir is it jp ke kg kh kr kz la lk lt lv " ++
    lit "ma md me mk ml mm mn mt mv ng nl no np pc ph pk pl pt ro rs ru se si sk sn sy tg th tj " ++
    lit "tm tr tw tz ua us uz vn za"
  [.menu (makeMultiline keymapsXkb false ' ') (lit "\nSelect Desktop Environment Keymap.\n")]

/-- What is answered in `set_timezone`; a zone is empty where its menu is cancelled. -/
structure TimezoneReplies where
  zoneList : List Str
  zone : Str
  cityList : List Str
  subzone : Str
  deriving DecidableEq, Repr

/-- `tui::set_timezone` -/
def setTimezoneDialogs (replies : TimezoneReplies) : List Dialog :=
  .menu replies.zoneList (lit "The time zone is used to correctly set your system clock.") ::
    if replies.zone.isEmpty then []
    else
      .menu replies.cityList (lit "Select the city nearest to you.") ::
        if replies.subzone.isEmpty then []
        else [.yesno (lit "\nSet Time Zone: " ++ replies.zone ++ lit "/" ++ replies.subzone ++
          lit "?\n")]

/-- The boxes of a password that is entered twice, again after each mismatch; the last one is open
where there is no entry for it. -/
def passwordBoxes (body confirmBody : Str) : List Entry → List Dialog
  | some pass :: some confirm :: entries =>
    .inputbox body :: .inputbox confirmBody ::
      if pass ≠ confirm then
        .msgbox (lit "\nThe passwords entered do not match.\nPlease try again.\n") ::
          passwordBoxes body confirmBody entries
      else []
  | some _ :: _ => [.inputbox body, .inputbox confirmBody]
  | _ => [.inputbox body]

/-- `tui::set_root_password` -/
def setRootPasswordDialogs (entries : List Entry) : List Dialog :=
  passwordBoxes (lit "Enter Root password") (lit "Re-enter Root password") entries

/-- The boxes of the user name, and the name unless a box is cancelled or left open. -/
def userNameBoxes (body : Str) : List Entry → List Dialog × Option Str
  | some user :: entries =>
    if user.isEmpty || contains user (lit " ") || user.any Char.isUpper then
      let (dialogs, name) := userNameBoxes
        (lit "An incorrect user name was entered. Please try again.") entries
      (.inputbox body :: dialogs, name)
    else ([.inputbox body], some user)
  | _ => ([.inputbox body], none)

/-- `tui::create_new_user`, with the entries for the name and for the password. -/
def createNewUserDialogs (names passwords : List Entry) : List Dialog :=
  match userNameBoxes (lit "Enter the user name. Letters MUST be lower case.") names with
  | (dialogs, none) => dialogs
  | (dialogs, some user) =>
    dialogs ++
      .radiolist [lit "zsh", lit "bash", lit "fish"]
        (lit "\n\nChoose the default shell.\nUse [Spacebar] to de/select options listed.\n") ::
      passwordBoxes (lit "Enter password for " ++ user) (lit "Re-enter the password.") passwords

/-- What is answered in `tui::install_base`. -/
structure BaseReplies where
  /-- the base was installed before -/
  baseInstalled : Bool
  doReinstall : Bool
  /-- the confirmations without a kernel, where none is installed -/
  noKernel : Nat
  /-- the kernel that is found, where the last confirmation is without one -/
  detected : Option Str
  deriving DecidableEq, Repr

/-- `tui::install_base` -/
def installBaseDialogs (replies : BaseReplies) : List Dialog :=
  (if replies.baseInstalled then
    [.yesno <| lit "\nA CachyOS Base has already been installed on this partition.\n" ++
      lit "Proceed anyway?\n"]
  else []) ++
    if replies.baseInstalled && !replies.doReinstall then []
    else
      .checklist
        [lit "linux-cachyos", lit "linux", lit "linux-zen", lit "linux-lts",
          lit "linux-cachyos-cacule", lit "linux-cachyos-bmq", lit "linux-cachyos-pds",
          lit "linux-cachyos-tt", lit "linux-cachyos-bore"]
        (lit "\n\nThe base package group will be installed automatically.\n" ++
          lit "The base-devel package group is required to use the Arch User Repository (AUR).\n" ++
          lit "Use [Spacebar] to de/select options listed.\n") ::
        List.replicate replies.noKernel
          (.msgbox (lit "\nAt least one kernel must be selected.\n")) ++
        (replies.detected.map fun cmd =>
          Dialog.msgbox (lit "\nlinux-" ++ cmd ++ lit " detected\n")).toList

/-- `tui::install_desktop`: only an info box where the base is not installed. -/
def installDesktopDialogs (baseInstalled : Bool) : List Dialog :=
  if baseInstalled then
    [.radiolist
      [lit "kde", lit "xfce", lit "sway", lit "wayfire", lit "i3wm", lit "gnome", lit "openbox",
        lit "bspwm", lit "lxqt", lit "cinnamon", lit "ukui", lit "qtile", lit "mate", lit "lxde",
        lit "hyprland", lit "budgie"]
      (lit "\n\nPlease choose a desktop environment.\n" ++
        lit "Use [Spacebar] to de/select options listed.\n")]
  else []

/-- What the commands answer in `check_base`. -/
structure CheckReplies where
  isMounted : Bool
  /-- `pacman` is found in the installed system -/
  pacman : Bool
  deriving DecidableEq, Repr

/-- `check_base`, with its dialogs. -/
def checkBase (replies : CheckReplies) : List Dialog × Bool :=
  if !replies.isMounted then ([], false)
  else if !replies.pacman then
    ([.msgbox (lit "\nThe CachyOS base must be installed first.\n")], false)
  else ([], true)

/-- `utils::install_bootloader`, which installs the given one if there is a base. -/
def installBootloaderDialogs (replies : CheckReplies) : List Dialog := (checkBase replies).1

/-- `tui::install_bootloader`, with the dialogs of the bootloader that is chosen. -/
def chooseBootloaderDialogs (replies : CheckReplies) (system : Str) (following : List Dialog) :
    List Dialog :=
  (checkBase replies).1 ++
    if !(checkBase replies).2 then []
    else if system = lit "BIOS" then
      .menu [lit "grub"] (lit "The installation device for GRUB can be selected in the next step.") ::
        following
    else
      .menu [lit "grub", lit "refind", lit "systemd-boot", lit "limine"]
        (lit "Refind can be used standalone or in conjunction with other bootloaders as a " ++
          lit "graphical bootmenu.\nIt autodetects all bootable systems at boot time.\n" ++
          lit "Grub supports encrypted /boot partition and detects all bootable systems when you " ++
          lit "update your kernels.\nIt supports booting .iso files from a harddrive and " ++
          lit "automatic boot entries for btrfs snapshots.\n" ++
          lit "Systemd-boot is very light and simple and has little automation.\n" ++
          lit "It autodetects windows, but is otherwise unsuited for multibooting.\n" ++
          lit "Limine is lightweight bootloader with Btrfs snapshots loading support.") :: following

/-! ## The end -/

/-- What is answered in `exit_done`. -/
structure ExitReplies where
  /-- what `final_check` finds missing -/
  checklist : Str
  doClose : Bool
  deriving DecidableEq, Repr

/-- `exit_done`. What is tested is the command that it builds, which is not run. -/
def exitDone (replies : ExitReplies) (mountpoint : Str) : List Dialog × Bool :=
  let targetMnt := lit "findmnt --list -o TARGET | grep " ++ mountpoint ++ lit " 2>/dev/null"
  if !targetMnt.isEmpty then
    let close := .yesno (lit "\nClose installer?\n" ++ replies.checklist ++ lit "\n")
    if !replies.doClose then ([close], false)
    else
      ([close, .yesno <| lit "\nWould you like to save\nthe installation-log\n" ++
        lit "to the installed system?\nIt will be copied to\n " ++ mountpoint ++
        lit "/cachyos-install.log\n"], true)
  else ([.yesno (lit "\nClose installer?\n")], replies.doClose)

/-- **The end always asks.** -/
theorem exitDone_ne_nil (replies : ExitReplies) (mountpoint : Str) :
    (exitDone replies mountpoint).1 ≠ [] := by
  rw [exitDone]
  split_ifs <;> exact List.cons_ne_nil _ _

end CliInstaller
