import CliInstaller.Gucc.StringUtils

/-!
# Choosing a file system and its mount options

The menu of file systems does not set the mount options to choose from; only `select_filesystem`
does, which is called for additional partitions and not for the root. Before its first call the
setting holds a string, and reading it as a list ends the program.

Source: `src/tui.cpp`, `src/disk.cpp`, `src/widgets.cpp`.

## Main definitions

* `FilesystemSettings`: the settings that are read and written
* `selectFsAndCmd`, `selectFilesystem`, `tuiSelectFilesystem`: the functions that choose
* `selectMountOpts`: the options that are chosen
-/

namespace CliInstaller

/-- The settings of the chosen file system; `fsOpts` is `none` as long as it holds a string. -/
structure FilesystemSettings where
  filesystemName : Str
  filesystem : Str
  fsOpts : Option (List Str)
  mountOpts : Str
  deriving DecidableEq, Repr

/-- The file system and the command of each line of the menu. -/
def fsMenuEntries : List (Str × Str) :=
  [(lit "skip", lit "Do not format -"), (lit "btrfs", lit "btrfs mkfs.btrfs -f"),
    (lit "ext4", lit "ext4 mkfs.ext4 -q"), (lit "f2fs", lit "f2fs mkfs.f2fs -q"),
    (lit "xfs", lit "xfs mkfs.xfs -f")]

/-- `select_fs_and_cmd`, with the line that is chosen if the menu is not cancelled. -/
def selectFsAndCmd (selected : Option Nat) : Except Fault (Option (Str × Str)) :=
  match selected with
  | none => .ok none
  | some selected =>
    match fsMenuEntries[selected]? with
    | some (fstype, mkfsCommand) =>
      .ok (some (fstype, if fstype = lit "skip" then [] else mkfsCommand))
    | none => .error .indexPastEnd

/-- The command and the mount options of the file systems that are supported. -/
def supportedFilesystem (fileSys : Str) : Option (Str × List Str) :=
  if fileSys = lit "btrfs" then
    some (lit "mkfs.btrfs -f",
      [lit "autodefrag", lit "compress=zlib", lit "compress=lzo", lit "compress=zstd",
        lit "compress=no", lit "compress-force=zlib", lit "compress-force=lzo",
        lit "compress-force=zstd", lit "discard", lit "noacl", lit "noatime", lit "nodatasum",
        lit "nospace_cache", lit "recovery", lit "skip_balance", lit "space_cache", lit "nossd",
        lit "ssd", lit "ssd_spread", lit "commit=120"])
  else if fileSys = lit "ext4" then
    some (lit "mkfs.ext4 -q",
      [lit "data=journal", lit "data=writeback", lit "dealloc", lit "discard", lit "noacl",
        lit "noatime", lit "nobarrier", lit "nodelalloc"])
  else if fileSys = lit "f2fs" then
    some (lit "mkfs.f2fs -q",
      [lit "data_flush", lit "disable_roll_forward", lit "disable_ext_identify", lit "discard",
        lit "fastboot", lit "flush_merge", lit "inline_xattr", lit "inline_data",
        lit "inline_dentry", lit "no_heap", lit "noacl", lit "nobarrier", lit "noextent_cache",
        lit "noinline_data", lit "norecovery"])
  else if fileSys = lit "xfs" then
    some (lit "mkfs.xfs -f",
      [lit "discard", lit "filestreams", lit "ikeep", lit "largeio", lit "noalign",
        lit "nobarrier", lit "norecovery", lit "noquota", lit "wsync"])
  else none

/-- `utils::select_filesystem`: an unsupported file system only changes the name. -/
def selectFilesystem (fileSys : Str) (fs : FilesystemSettings) : FilesystemSettings :=
  let fs := { fs with filesystemName := fileSys }
  match supportedFilesystem fileSys with
  | some (filesystem, fsOpts) => { fs with filesystem, fsOpts := some fsOpts }
  | none => fs

/-- `tui::select_filesystem`; the command it offers to run is not part of the settings. -/
def tuiSelectFilesystem (selected : Option Nat) (fs : FilesystemSettings) :
    Except Fault (Bool × FilesystemSettings) := do
  let fs := { fs with fsOpts := some [] }
  match ← selectFsAndCmd selected with
  | none => return (false, fs)
  | some (fstype, _) =>
    if fstype = lit "skip" then return (true, fs)
    return (true, selectFilesystem fstype fs)

/-- What is answered in `select_mount_opts`. -/
structure MountOptsReplies where
  /-- the disk is a rotational one -/
  rotational : Bool
  /-- the state of each option, if the list is not cancelled -/
  checked : Option (List Bool)
  /-- the chosen options are confirmed -/
  confirmed : Bool
  deriving DecidableEq, Repr

/-- The options that are checked when the list is shown. -/
def defaultState (rotational : Bool) (fsOpt : Str) : Bool :=
  (if rotational then
    [lit "autodefrag", lit "compress=zlip", lit "nossd"].contains fsOpt
  else
    [lit "compress=lzo", lit "space_cache", lit "commit=120", lit "ssd"].contains fsOpt) ||
    fsOpt = lit "noatime"

/-- `from_checklist_string`: each checked option and a space, but for the last space. -/
def fromChecklistString (opts : List Str) (optsState : List Bool) : Str :=
  let res := (opts.zip optsState).foldl
    (fun res (opt, state) => if state then res ++ (opt ++ lit " ") else res) []
  if res.getLast? = some ' ' then res.dropLast else res

/-- `cleanup_mount_opts`: commas for the spaces, and none at the end. -/
def cleanupMountOpts (optsInfo : Str) : Str :=
  let optsInfo := optsInfo.map fun c => if c = ' ' then ',' else c
  if optsInfo.getLast? = some ',' then optsInfo.dropLast else optsInfo

/-- `select_mount_opts`; with `force` nothing is asked. -/
def selectMountOpts (fs : FilesystemSettings) (replies : MountOptsReplies) (force : Bool) :
    Except Fault Str :=
  match fs.fsOpts with
  | none => .error .badVariantAccess
  | some fsOpts =>
    if fsOpts.isEmpty then .ok []
    else if force then
      .ok (cleanupMountOpts
        (fromChecklistString fsOpts (fsOpts.map (defaultState replies.rotational))))
    else
      let mountOptsInfo := cleanupMountOpts
        ((replies.checked.map (fromChecklistString fsOpts)).getD [])
      .ok (if mountOptsInfo ≠ [] && !replies.confirmed then [] else mountOptsInfo)

end CliInstaller
