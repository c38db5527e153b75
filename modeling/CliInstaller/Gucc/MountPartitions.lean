import CliInstaller.Gucc.StringUtils
import CliInstaller.Gucc.Partition

/-!
# `gucc::mount`: the LUKS data of a mounted partition

`query_partition` writes what it finds out about a device into variables of the caller. It never
clears them: for a device that is no crypt mapping they stay as they are, and for LUKS on LVM the
UUID does.

Source: `gucc/src/mount_partitions.cpp`.

## Main definitions

* `Devices`: what the commands report about the block devices
* `LuksSettings`, `queryPartition`: the variables, and the function
* `MappedDevices`, `MappedDevices.OwnLuks`: the crypt mappings, and the LUKS data of a device itself

## Main results

* `queryPartition_of_crypt`: what the function writes for a crypt mapping
* `queryPartition_luksName`, `queryPartition_luksUuid`: what it leaves in the variables
-/

namespace CliInstaller

/-- What the commands report about the block devices of the system. -/
structure Devices where
  /-- `lsblk -lno TYPE` of the device has a line with `crypt` -/
  isCrypt : Str → Bool
  /-- the device without `/dev/mapper/` -/
  nameOf : Str → Str
  /-- the LVM volumes that hold LUKS -/
  lvmCryptoLuks : Str
  /-- the crypt mappings that hold an LVM physical volume -/
  cryptLvm2Member : Str
  /-- the partitions that hold LUKS -/
  partCryptoLuks : Str
  /-- `lsblk -lno NAME` of the device has a line with the name -/
  holds : Str → Str → Bool
  /-- the UUID `lsblk` reports for the device -/
  uuidOf : Str → Str
  /-- a crypt mapping has a name -/
  nameOf_ne_nil : ∀ device, isCrypt device = true → nameOf device ≠ []

/-- The variables `query_partition` writes. -/
structure LuksSettings where
  isLuks : Int
  isLvm : Int
  luksName : Str
  luksDev : Str
  luksUuid : Str
  deriving DecidableEq, Repr

namespace LuksSettings

/-- Nothing is known of any device. -/
def reset : LuksSettings := ⟨0, 0, [], [], []⟩

end LuksSettings

namespace Devices

variable (devices : Devices)

/-- `check_cryptparts`: the first device of the list that holds the name. -/
def checkCryptparts (cryptparts luksName : Str) : Option Str :=
  (makeMultiline cryptparts false '\n').find? fun cryptpart => devices.holds cryptpart luksName

/-- The LVM volume or the crypt mapping that holds the name. -/
def lvmPart (luksName : Str) : Option Str :=
  (devices.checkCryptparts devices.lvmCryptoLuks luksName).or
    (devices.checkCryptparts devices.cryptLvm2Member luksName)

/-- The partition that holds the name, where no LVM is involved. -/
def luksPart (luksName : Str) : Option Str :=
  if (devices.lvmPart luksName).isSome then none
  else devices.checkCryptparts devices.partCryptoLuks luksName

def queryPartition (partition : Str) (luks : LuksSettings) : LuksSettings :=
  if devices.isCrypt partition then
    let luks := { luks with isLuks := 1, luksName := devices.nameOf partition }
    match devices.checkCryptparts devices.lvmCryptoLuks luks.luksName with
    | some cryptpart =>
      { luks with
        luksDev := luks.luksDev ++ lit " cryptdevice=" ++ cryptpart ++ lit ":" ++ luks.luksName
        isLvm := 1 }
    | none =>
      match devices.checkCryptparts devices.cryptLvm2Member luks.luksName with
      | some cryptpart =>
        { luks with
          luksDev := luks.luksDev ++ lit " cryptdevice=" ++ cryptpart ++ lit ":" ++ luks.luksName
          isLvm := 1 }
      | none =>
        match devices.checkCryptparts devices.partCryptoLuks luks.luksName with
        | some cryptpart =>
          let luks := { luks with luksUuid := devices.uuidOf cryptpart }
          { luks with
            luksDev := luks.luksDev ++ lit " cryptdevice=UUID=" ++ luks.luksUuid ++ lit ":" ++
              luks.luksName }
        | none => luks
  else luks

/-- The kernel parameter added for the name. -/
def cryptdevice (luksName : Str) : Str :=
  match devices.lvmPart luksName with
  | some cryptpart => lit " cryptdevice=" ++ cryptpart ++ lit ":" ++ luksName
  | none =>
    match devices.luksPart luksName with
    | some cryptpart =>
      lit " cryptdevice=UUID=" ++ devices.uuidOf cryptpart ++ lit ":" ++ luksName
    | none => []

/-- The name that is written for a device. -/
def queriedName (device : Str) : Option Str :=
  if devices.isCrypt device then some (devices.nameOf device) else none

variable {devices}

theorem queryPartition_of_not_crypt {partition : Str} (h : devices.isCrypt partition = false)
    (luks : LuksSettings) : devices.queryPartition partition luks = luks := by
  rw [queryPartition, if_neg (by simp [h])]

/-- **What the function writes for a crypt mapping.** -/
theorem queryPartition_of_crypt {partition : Str} (h : devices.isCrypt partition = true)
    (luks : LuksSettings) : devices.queryPartition partition luks =
      { isLuks := 1
        isLvm := if (devices.lvmPart (devices.nameOf partition)).isSome then 1 else luks.isLvm
        luksName := devices.nameOf partition
        luksDev := luks.luksDev ++ devices.cryptdevice (devices.nameOf partition)
        luksUuid := ((devices.luksPart (devices.nameOf partition)).map devices.uuidOf).getD
          luks.luksUuid } := by
  rw [queryPartition, if_pos h, cryptdevice, luksPart, lvmPart]
  dsimp only
  rcases devices.checkCryptparts devices.lvmCryptoLuks (devices.nameOf partition) with _ | part
  · rcases devices.checkCryptparts devices.cryptLvm2Member (devices.nameOf partition) with _ | part
    · rcases devices.checkCryptparts devices.partCryptoLuks (devices.nameOf partition) with _ | part
      · simp
      · simp
    · simp
  · simp

/-- **The name is that of the device**, if it is a crypt mapping. -/
theorem queryPartition_luksName (partition : Str) (luks : LuksSettings) :
    (devices.queryPartition partition luks).luksName =
      (devices.queriedName partition).getD luks.luksName := by
  unfold queriedName
  by_cases hcrypt : devices.isCrypt partition
  · rw [queryPartition_of_crypt hcrypt, if_pos hcrypt, Option.getD_some]
  · rw [queryPartition_of_not_crypt (by simpa using hcrypt), if_neg hcrypt, Option.getD_none]

/-- **The UUID is written only where the mapping is right on a partition.** -/
theorem queryPartition_luksUuid (partition : Str) (luks : LuksSettings) :
    (devices.queryPartition partition luks).luksUuid =
      if devices.isCrypt partition then
        ((devices.luksPart (devices.nameOf partition)).map devices.uuidOf).getD luks.luksUuid
      else luks.luksUuid := by
  by_cases hcrypt : devices.isCrypt partition
  · rw [queryPartition_of_crypt hcrypt, if_pos hcrypt]
  · rw [queryPartition_of_not_crypt (by simpa using hcrypt), if_neg hcrypt]

end Devices

/-! ## The LUKS data of a device itself -/

/-- A crypt mapping: its name, and the partition or LVM volume whose LUKS data it was opened from. -/
structure CryptMapping where
  name : Str
  container : Str
  deriving DecidableEq, Repr

/-- The block devices: what the commands report, and the crypt mappings that there are. -/
structure MappedDevices extends Devices where
  /-- the crypt mapping that the device is -/
  mapping : Str → Option CryptMapping
  /-- the UUID of the LUKS data on a partition or LVM volume -/
  headerUuid : Str → Str

namespace MappedDevices

variable (devices : MappedDevices)

/-- The name of the device, where it is a crypt mapping. -/
def mapperNameOf (device : Str) : Option Str := (devices.mapping device).map CryptMapping.name

/-- The UUID of the LUKS data under the device, where it is a crypt mapping. -/
def luksUuidOf (device : Str) : Option Str :=
  (devices.mapping device).map fun mapping => devices.headerUuid mapping.container

/-- **The LUKS fields of a partition are those of its device**: the mapper name is set iff the
device is a crypt mapping, and with it the UUID of the LUKS data under that mapping. -/
structure OwnLuks (part : Partition) : Prop where
  mapperName : part.luksMapperName = devices.mapperNameOf part.device
  uuid : part.luksUuid = devices.luksUuidOf part.device

end MappedDevices

end CliInstaller
