import CliInstaller.Gucc.Btrfs
import CliInstaller.Gucc.StringUtils

/-!
# Subvolumes of a mounted btrfs root

The subvolumes are created or found on the root, the user gives each a mountpoint, and they are
added to the partition scheme. What is added has the device of a partition that was there, and the
LUKS fields of it.

Source: `src/disk.cpp`, `src/tui.cpp`.

## Main definitions

* `SubvolumeReplies`: what the user and the commands answer
* `btrfsCreateSubvols`, `mountExistingSubvols`, `btrfsSubvolumes`: the functions
* `luksFields`: the device of a partition and its LUKS fields

## Main results

* `btrfsCreateSubvols_luksFields`, `mountExistingSubvols_luksFields`: no partition gets a device
  or LUKS fields that were not in the scheme
-/

namespace CliInstaller

open Sorting

/-- What the user and the commands answer when subvolumes are set up. -/
structure SubvolumeReplies where
  /-- the line of the menu of modes, if it is not cancelled -/
  mode : Option Nat
  /-- the names that are entered, if the box is not cancelled -/
  subvols : Option Str
  /-- the mountpoints that are entered before a box is cancelled -/
  mountpoints : List Str
  /-- the automatic subvolumes are agreed to -/
  doCreate : Bool
  /-- the subvolumes of the file system, one a line -/
  existing : Str
  deriving DecidableEq, Repr

def defaultSubvolumes : List BtrfsSubvolume :=
  [⟨lit "/@", ['/']⟩, ⟨lit "/@home", lit "/home"⟩, ⟨lit "/@cache", lit "/var/cache"⟩]

/-- The subvolumes with the mountpoints that are entered, if no box is cancelled. -/
def withMountpoints (subvols mountpoints : List Str) : Option (List BtrfsSubvolume) :=
  if mountpoints.length < subvols.length then none
  else some (subvols.zipWith BtrfsSubvolume.mk mountpoints)

section Functions

variable (S : Sorter Partition)

/-- The subvolumes are appended, and the root partition is found again: it is dereferenced
unchecked. -/
def appendAndFindRoot (partitions : List Partition) (subvols : List BtrfsSubvolume) :
    Except Fault (List Partition) := do
  let (_, partitions) ← btrfsAppendSubvolumes S partitions subvols
  if (findRootBtrfsPart partitions).isNone then throw .endIterator
  return partitions

/-- `utils::btrfs_create_subvols` -/
def btrfsCreateSubvols (replies : SubvolumeReplies) (mode : Str) (ignoreNote : Bool)
    (partitions : List Partition) : Except Fault (List Partition) :=
  if mode.isEmpty then .ok partitions
  else if (findRootBtrfsPart partitions).isNone then .ok partitions
  else if mode = lit "manual" then
    match replies.subvols with
    | none => .ok partitions
    | some subvols =>
      match makeMultiline subvols false ' ' with
      | [] => .error .indexPastEnd
      | first :: subvolList =>
        match withMountpoints subvolList replies.mountpoints with
        | none => .ok partitions
        | some subvolumes => appendAndFindRoot S partitions (⟨first, ['/']⟩ :: subvolumes)
  else if !ignoreNote && !replies.doCreate then .ok partitions
  else appendAndFindRoot S partitions defaultSubvolumes

/-- `utils::mount_existing_subvols` -/
def mountExistingSubvols (replies : SubvolumeReplies) (partitions : List Partition) :
    Except Fault (List Partition) :=
  if (findRootBtrfsPart partitions).isNone then .ok partitions
  else
    match withMountpoints (makeMultiline replies.existing false '\n') replies.mountpoints with
    | none => .ok partitions
    | some subvolumes => appendAndFindRoot S partitions subvolumes

/-- `tui::btrfs_subvolumes` -/
def btrfsSubvolumes (replies : SubvolumeReplies) (partitions : List Partition) :
    Except Fault (List Partition) :=
  match replies.mode with
  | none => .ok partitions
  | some 0 => btrfsCreateSubvols S replies (lit "automatic") false partitions
  | some 1 => btrfsCreateSubvols S replies (lit "manual") false partitions
  | some _ => .error .indexPastEnd

end Functions

/-! ## Devices and LUKS fields -/

/-- The device and the LUKS fields of a partition. -/
def luksFields (part : Partition) : Str × Option Str × Option Str :=
  (part.device, part.luksMapperName, part.luksUuid)

/-- The schemes have the same devices, with the same LUKS fields. -/
def SameLuksFields (partitions partitions' : List Partition) : Prop :=
  ∀ fields, fields ∈ partitions'.map luksFields ↔ fields ∈ partitions.map luksFields

theorem SameLuksFields.refl (partitions : List Partition) :
    SameLuksFields partitions partitions := fun _ => Iff.rfl

section SameLuksFields

variable {S : Sorter Partition} {partitions result : List Partition}

/-- Overwritten partitions keep their fields, and clones copy those of the root. -/
theorem appendSubvolumes_luksFields {subvols : List BtrfsSubvolume}
    (h : appendSubvolumes subvols partitions = .ok result) : SameLuksFields partitions result := by
  induction subvols generalizing partitions with
  | nil =>
    obtain rfl := Except.ok.inj h
    exact .refl partitions
  | cons subvol subvols ih =>
    rw [appendSubvolumes] at h
    split_ifs at h with hany
    · have hkeep : (modifyFirst (fun part => findPartition part subvol) (overwrite subvol)
          partitions).map luksFields = partitions.map luksFields :=
        map_modifyFirst (fun part => (rfl : luksFields (overwrite subvol part) = _)) partitions
      intro fields
      rw [ih h fields, hkeep]
    · rcases hroot : findRootBtrfsPart partitions with _ | root
      · simp [hroot] at h
      · rw [hroot] at h
        have hmem : luksFields root ∈ partitions.map luksFields :=
          List.mem_map_of_mem (List.mem_of_find?_eq_some hroot)
        have hclone : luksFields (cloneRoot subvol root) = luksFields root := rfl
        intro fields
        rw [ih h fields, List.map_append, List.map_singleton, hclone, List.mem_append,
          List.mem_singleton]
        constructor
        · rintro (hfields | rfl)
          · exact hfields
          · exact hmem
        · exact Or.inl

/-- What is left when the subvolumes are appended: the partitions as they were, or the result of the
loop, sorted. -/
theorem appendAndFindRoot_cases {subvols : List BtrfsSubvolume}
    (h : appendAndFindRoot S partitions subvols = .ok result) :
    (subvols = [] ∨ findRootBtrfsPart partitions = none) ∧ result = partitions ∨
      ∃ unsorted, appendSubvolumes subvols partitions = .ok unsorted ∧
        result = S.byKey Partition.device unsorted := by
  obtain ⟨⟨added, appended⟩, happend, hroot⟩ := bind_eq_ok.mp h
  obtain rfl : appended = result := by
    dsimp only at hroot
    split_ifs at hroot
    · cases hroot
    · exact Except.ok.inj hroot
  rw [btrfsAppendSubvolumes] at happend
  split_ifs at happend with hempty hnone
  · exact .inl ⟨.inl (List.isEmpty_iff.mp hempty), (Prod.mk.inj (Except.ok.inj happend)).2.symm⟩
  · exact .inl ⟨.inr (Option.isNone_iff_eq_none.mp hnone),
      (Prod.mk.inj (Except.ok.inj happend)).2.symm⟩
  · obtain ⟨unsorted, hunsorted, hsort⟩ := bind_eq_ok.mp happend
    exact .inr ⟨unsorted, hunsorted, (Prod.mk.inj (Except.ok.inj hsort)).2.symm⟩

theorem appendAndFindRoot_luksFields {subvols : List BtrfsSubvolume}
    (h : appendAndFindRoot S partitions subvols = .ok result) :
    SameLuksFields partitions result := by
  rcases appendAndFindRoot_cases h with ⟨-, rfl⟩ | ⟨unsorted, hunsorted, rfl⟩
  · exact .refl _
  · intro fields
    rw [((S.byKey_perm Partition.device unsorted).map luksFields).mem_iff]
    exact appendSubvolumes_luksFields hunsorted fields

/-- **Creating subvolumes adds no device and no LUKS fields.** -/
theorem btrfsCreateSubvols_luksFields {replies : SubvolumeReplies} {mode : Str} {ignoreNote : Bool}
    (h : btrfsCreateSubvols S replies mode ignoreNote partitions = .ok result) :
    SameLuksFields partitions result := by
  unfold btrfsCreateSubvols at h
  split_ifs at h
  · exact Except.ok.inj h ▸ .refl _
  · exact Except.ok.inj h ▸ .refl _
  · rcases hsubvols : replies.subvols with _ | subvols
    · rw [hsubvols] at h
      exact Except.ok.inj h ▸ .refl _
    · rw [hsubvols] at h
      dsimp only at h
      rcases hlist : makeMultiline subvols false ' ' with _ | ⟨first, subvolList⟩
      · simp [hlist] at h
      · rw [hlist] at h
        dsimp only at h
        rcases hmount : withMountpoints subvolList replies.mountpoints with _ | subvolumes
        · rw [hmount] at h
          exact Except.ok.inj h ▸ .refl _
        · rw [hmount] at h
          exact appendAndFindRoot_luksFields h
  · exact Except.ok.inj h ▸ .refl _
  · exact appendAndFindRoot_luksFields h

/-- **Mounting subvolumes adds no device and no LUKS fields.** -/
theorem mountExistingSubvols_luksFields {replies : SubvolumeReplies}
    (h : mountExistingSubvols S replies partitions = .ok result) :
    SameLuksFields partitions result := by
  unfold mountExistingSubvols at h
  split_ifs at h
  · exact Except.ok.inj h ▸ .refl _
  · rcases hmount : withMountpoints (makeMultiline replies.existing false '\n')
      replies.mountpoints with _ | subvolumes
    · rw [hmount] at h
      exact Except.ok.inj h ▸ .refl _
    · rw [hmount] at h
      exact appendAndFindRoot_luksFields h

end SameLuksFields

end CliInstaller
