import CliInstaller.Gucc.Partition

/-!
# `gucc::fs`: generating fstab

Every partition that is neither zfs nor swap has one entry, in the order of the list.

Source: `gucc/src/fstab.cpp`.

## Main definitions

* `FstabEntry`, `fstabEntry`: the fields of an entry, and how they are chosen
* `genFstabEntry`, `generateFstabContent`: the two generators

## Main results

* `generateFstabContent_eq`: the content is the header and the entries
* `fstabLine_eq_some_iff`, `fstabDevice_eq_mapper_iff`: which entries there are, and which of them
  name a device of the mapper
-/

namespace CliInstaller

def fstabHeader : Str :=
  lit "# Static information about the filesystems.\n# See fstab(5) for details.\n\n# <file system> <dir> <type> <options> <dump> <pass>\n"

def convertFsnameFstab (fsname : Str) : Str :=
  if fsname = lit "fat16" || fsname = lit "fat32" then lit "vfat"
  else if fsname = lit "linuxswap" then lit "swap"
  else fsname

def getCheckNumber (mountpoint fstype : Str) : Nat :=
  if mountpoint = ['/'] && fstype ≠ lit "btrfs" then 1
  else if mountpoint ≠ lit "swap" && fstype ≠ lit "btrfs" then 2
  else 0

def getMountOptions (mountOpts btrfsSubvolume fstype : Str) : Str :=
  if fstype = lit "btrfs" && !btrfsSubvolume.isEmpty then
    lit "subvol=" ++ btrfsSubvolume ++ [','] ++ mountOpts
  else mountOpts

/-- `string_tolower`, in the "C" locale. -/
def stringTolower (text : Str) : Str := text.map Char.toLower

def getConvertedFs (fstype : Str) : Str := convertFsnameFstab (stringTolower fstype)

/-- The fields of an entry. -/
structure FstabEntry where
  comment : Str
  device : Str
  dir : Str
  fstype : Str
  options : Str
  pass : Nat
  deriving DecidableEq, Repr

/-- The text of an entry: `"# {}\n{:41} {:<14} {:<7} {:<10} 0 {}\n\n"`. -/
def FstabEntry.text (entry : FstabEntry) : Str :=
  lit "# " ++ entry.comment ++ ['\n'] ++ padRight 41 entry.device ++ [' '] ++
    padRight 14 entry.dir ++ [' '] ++ padRight 7 entry.fstype ++ [' '] ++
    padRight 10 entry.options ++ lit " 0 " ++ (toString entry.pass).toList ++ ['\n', '\n']

/-- The device field. -/
def fstabDevice (partition : Partition) : Str :=
  match partition.luksMapperName with
  | some luksMapperName => lit "/dev/mapper/" ++ luksMapperName
  | none =>
    if !partition.uuidStr.isEmpty then lit "UUID=" ++ partition.uuidStr else partition.device

/-- The fields `gen_fstab_entry` chooses; `none` for swap. -/
def fstabEntry (partition : Partition) : Option FstabEntry :=
  let fstype := getConvertedFs partition.fstype
  if fstype = lit "swap" then none
  else some {
    comment := partition.device
    device := fstabDevice partition
    dir := partition.mountpoint
    fstype
    options := getMountOptions partition.mountOpts (partition.subvolume.getD []) fstype
    pass := getCheckNumber partition.mountpoint fstype }

def genFstabEntry (partition : Partition) : Option Str :=
  (fstabEntry partition).map FstabEntry.text

def generateFstabContent (partitions : List Partition) : Str :=
  partitions.foldl
    (fun fstabContent partition =>
      if partition.fstype = lit "zfs" then fstabContent
      else
        match genFstabEntry partition with
        | none => fstabContent
        | some entry => fstabContent ++ entry) fstabHeader

/-! ## The entries -/

/-- The entry of a partition in the generated file. -/
def fstabLine (partition : Partition) : Option FstabEntry :=
  if partition.fstype = lit "zfs" then none else fstabEntry partition

/-- **The content is the header followed by the entries**, in the order of the partitions. -/
theorem generateFstabContent_eq (partitions : List Partition) :
    generateFstabContent partitions =
      fstabHeader ++ (partitions.filterMap fstabLine).flatMap FstabEntry.text := by
  rw [generateFstabContent]
  apply foldl_append_entries
  intro content partition
  by_cases hzfs : partition.fstype = lit "zfs"
  · simp [fstabLine, hzfs]
  · rcases hentry : fstabEntry partition with _ | entry <;>
      simp [fstabLine, hzfs, genFstabEntry, hentry]

/-- The partition has an entry: it is neither zfs nor, up to case, swap. -/
def HasFstabLine (partition : Partition) : Prop :=
  partition.fstype ≠ lit "zfs" ∧ getConvertedFs partition.fstype ≠ lit "swap"

instance (partition : Partition) : Decidable (HasFstabLine partition) := by
  unfold HasFstabLine; infer_instance

/-- The entry of a partition that has one. -/
theorem fstabLine_eq_some_iff {partition : Partition} {entry : FstabEntry} :
    fstabLine partition = some entry ↔ HasFstabLine partition ∧ entry = {
      comment := partition.device
      device := fstabDevice partition
      dir := partition.mountpoint
      fstype := getConvertedFs partition.fstype
      options := getMountOptions partition.mountOpts (partition.subvolume.getD [])
        (getConvertedFs partition.fstype)
      pass := getCheckNumber partition.mountpoint (getConvertedFs partition.fstype) } := by
  simp only [fstabLine, fstabEntry, HasFstabLine]
  split_ifs with hzfs hswap
  · simp [hzfs]
  · simp [hswap]
  · simp [hzfs, hswap, eq_comm]

theorem lit_uuid_ne_mapper (u N : Str) : lit "UUID=" ++ u ≠ lit "/dev/mapper/" ++ N := by
  intro h
  have hhead := congrArg List.head? h
  simp [lit_eq] at hhead

/-- When the device field is the mapper's device `N`. -/
theorem fstabDevice_eq_mapper_iff {partition : Partition} {N : Str} :
    fstabDevice partition = lit "/dev/mapper/" ++ N ↔
      partition.luksMapperName = some N ∨
        partition.luksMapperName = none ∧ partition.uuidStr = [] ∧
          partition.device = lit "/dev/mapper/" ++ N := by
  rw [fstabDevice]
  rcases partition.luksMapperName with _ | name
  · by_cases huuid : partition.uuidStr = []
    · simp [huuid]
    · simp [huuid, lit_uuid_ne_mapper]
  · simp

end CliInstaller
