import CliInstaller.Gucc.MountPartitions

/-!
# The crypt devices below `/` and `/boot`

After mounting, the crypt device of the root is written to the settings, and the one of `/boot` is
added to it. The root's is written without a space before it, `query_partition` and `/boot` add
theirs with one.

Source: `src/utils.cpp`.

## Main definitions

* `CryptSettings`: the settings that are read and written
* `getCryptroot`, `getCryptboot`: the functions, on what their commands answer
-/

namespace CliInstaller

/-- The LUKS settings, with `LUKS_ROOT_NAME`. -/
structure CryptSettings extends LuksSettings where
  luksRootName : Str
  deriving DecidableEq, Repr

/-- What the commands answer in `get_cryptroot`; the lists are empty where `lsblk` finds
nothing. -/
structure CryptrootReplies where
  /-- both `lsblk` pipelines report a crypt device below the mountpoint -/
  isCrypt : Bool
  /-- the name of what is mounted -/
  mountName : Str
  /-- the mountpoint is right on the crypt device -/
  direct : Bool
  /-- the name of the crypt device above the mountpoint -/
  parentName : Str
  /-- the LVM volumes at the mountpoint that hold LUKS -/
  lvmCryptoLuks : Str
  /-- the crypt mappings that hold an LVM physical volume -/
  cryptLvm2Member : Str
  /-- the partitions at the mountpoint that hold LUKS -/
  partCryptoLuks : Str
  /-- the devices of the lists that hold the name -/
  holding : List Str
  /-- the UUID below the mountpoint -/
  parentUuid : Str
  /-- the UUIDs of the devices -/
  uuids : List (Str × Str)
  deriving DecidableEq, Repr

namespace CryptrootReplies

def name (replies : CryptrootReplies) : Str :=
  if replies.direct then replies.mountName else replies.parentName

/-- The functor of each list is called for every device that holds the name. -/
def forCryptparts (replies : CryptrootReplies) (cryptparts : Str)
    (functor : Str → CryptSettings → CryptSettings) (crypt : CryptSettings) : CryptSettings :=
  ((makeMultiline cryptparts false '\n').filter replies.holding.contains).foldl
    (fun crypt cryptpart => functor cryptpart crypt) crypt

end CryptrootReplies

def getCryptroot (replies : CryptrootReplies) (crypt : CryptSettings) : CryptSettings :=
  if !replies.isCrypt then crypt
  else
    let luksName := replies.name
    let crypt := { crypt with isLuks := 1, luksRootName := luksName }
    -- LUKS on LVM
    if !replies.lvmCryptoLuks.isEmpty then
      replies.forCryptparts replies.lvmCryptoLuks (fun cryptpart crypt =>
        { crypt with
          luksDev := lit "cryptdevice=" ++ cryptpart ++ lit ":" ++ luksName
          isLvm := 1 }) crypt
    -- LVM on LUKS
    else if !replies.cryptLvm2Member.isEmpty then
      replies.forCryptparts replies.cryptLvm2Member (fun _ crypt =>
        { crypt with
          luksUuid := replies.parentUuid
          luksDev := lit "cryptdevice=UUID=" ++ replies.parentUuid ++ lit ":" ++ luksName
          isLvm := 1 }) crypt
    -- LUKS alone
    else if !replies.partCryptoLuks.isEmpty then
      replies.forCryptparts replies.partCryptoLuks (fun cryptpart crypt =>
        let luksUuid := (replies.uuids.lookup cryptpart).getD []
        { crypt with
          luksUuid
          luksDev := lit "cryptdevice=UUID=" ++ luksUuid ++ lit ":" ++ luksName }) crypt
    else crypt

structure CryptbootReplies where
  /-- both `lsblk` pipelines report a crypt device below `/boot` -/
  isCrypt : Bool
  /-- the mountpoint is right on the crypt device -/
  direct : Bool
  /-- the name and the UUID of what is mounted -/
  mountName : Str
  mountUuid : Str
  /-- the name and the UUID of the crypt device above the mountpoint -/
  parentName : Str
  parentUuid : Str
  /-- `/boot` is an LVM volume -/
  isLvm : Bool
  deriving DecidableEq, Repr

namespace CryptbootReplies

def name (replies : CryptbootReplies) : Str :=
  if replies.direct then replies.mountName else replies.parentName

def uuid (replies : CryptbootReplies) : Str :=
  if replies.direct then replies.mountUuid else replies.parentUuid

end CryptbootReplies

/-- `get_cryptboot`: the device is added unless its UUID is found in `LUKS_DEV`; an empty UUID is
never found. -/
def getCryptboot (replies : CryptbootReplies) (crypt : CryptSettings) : CryptSettings :=
  if !replies.isCrypt then crypt
  else
    let crypt := { crypt with isLuks := 1, isLvm := if replies.isLvm then 1 else crypt.isLvm }
    if replies.uuid.isEmpty || !contains crypt.luksDev replies.uuid then
      { crypt with
        luksDev := crypt.luksDev ++ lit " cryptdevice=UUID=" ++ replies.uuid ++ lit ":" ++
          replies.name }
    else crypt

end CliInstaller
