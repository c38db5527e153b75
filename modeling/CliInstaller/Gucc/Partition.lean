import CliInstaller.Cpp.Runtime

/-!
# `gucc::fs::Partition`

The record every generator of the installed system's configuration reads.

Source: `gucc/include/gucc/partition.hpp`, `gucc/include/gucc/btrfs.hpp`.

## Main definitions

* `Partition`, `BtrfsSubvolume`: the records
* `Partition.Encrypted`: both LUKS fields are set and not empty
-/

namespace CliInstaller

structure Partition where
  fstype : Str
  mountpoint : Str
  uuidStr : Str
  device : Str
  size : Str
  mountOpts : Str
  subvolume : Option Str
  luksMapperName : Option Str
  luksUuid : Option Str
  luksPassphrase : Option Str
  deriving DecidableEq, Repr

structure BtrfsSubvolume where
  subvolume : Str
  mountpoint : Str
  deriving DecidableEq, Repr

namespace Partition

/-- A value-initialised partition. -/
def empty : Partition := ⟨[], [], [], [], [], [], none, none, none, none⟩

/-- The mapper name and the LUKS UUID are set and not empty. -/
def Encrypted (partition : Partition) : Prop :=
  (∃ name, partition.luksMapperName = some name ∧ name ≠ []) ∧
    ∃ uuid, partition.luksUuid = some uuid ∧ uuid ≠ []

instance (partition : Partition) : Decidable partition.Encrypted :=
  decidable_of_iff
    ((partition.luksMapperName.getD [] ≠ []) ∧ partition.luksUuid.getD [] ≠ []) (by
      rcases partition with ⟨_, _, _, _, _, _, _, _ | _, _ | _, _⟩ <;> simp [Encrypted])

/-- An encrypted partition, for examples. -/
def encrypted (mountpoint device name uuid : Str) : Partition :=
  { empty with fstype := lit "ext4", mountpoint, device, luksMapperName := some name,
               luksUuid := some uuid }

end Partition

end CliInstaller
