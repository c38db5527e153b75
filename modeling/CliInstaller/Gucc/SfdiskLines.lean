import CliInstaller.Gucc.Partitioning
import Mathlib.Data.List.Perm.Subperm

/-!
# One line for each device

Adjacent partitions of one device are merged after the last sort, which is by size only. Where a
device stands in the list twice and another device has the same size, the sort may put the other one
in between, and the device has two lines. A newline in a size makes one more line.

## Main definitions

* `OneLineEach`: the label, and one line for each device, those without a size at the end
* `SizesApart`: a device that stands in the list twice shares its size with no other

## Main results

* `sfdiskFiltered_nodup`, `exists_sfdiskFiltered_twice`: when a device is kept once
* `oneLineEach_iff`: when there is one line for each device, whatever the sorts do with equal keys
-/

namespace CliInstaller

open Sorting

/-- **One line for each device**: the lines of the commands are the label and the lines of partitions of
the list, one of each device; a line without a size comes after every line with one. -/
def OneLineEach (partitions : List Partition) (isEfi : Bool) (sfdiskCommands : Str) : Prop :=
  ∃ parts : List Partition,
    lines sfdiskCommands = sfdiskLabel isEfi :: parts.map partitionLine ++ [[]] ∧
      parts ⊆ partitions ∧ (parts.map Partition.device).Nodup ∧
      (∀ part ∈ partitions, part.device ∈ parts.map Partition.device) ∧
      parts.Pairwise fun a b => b.size ≠ [] → a.size ≠ []

/-- Partitions of one device have the same size and the same file system. -/
def SameDeviceSameLine (partitions : List Partition) : Prop :=
  ∀ p ∈ partitions, ∀ q ∈ partitions, p.device = q.device → p.size = q.size ∧ p.fstype = q.fstype

/-- A device whose size is that of another device stands in the list once. -/
def SizesApart (partitions : List Partition) : Prop :=
  ∀ p ∈ partitions, ∀ q ∈ partitions, p.size = q.size → p.device ≠ q.device →
    (partitions.map Partition.device).count p.device = 1

section Filter

variable {partitions : List Partition}

/-- The partitions that are kept, by decreasing size. -/
theorem sfdiskFiltered_sizes (S : Sorter Partition) :
    (sfdiskFiltered S partitions).Pairwise fun a b => b.size ≠ [] → a.size ≠ [] := by
  obtain ⟨sorted, -, hsorted, hfiltered⟩ := sfdiskFiltered_eq S partitions
  rw [hfiltered]
  refine (hsorted.sublist (uniqueBy_sublist sorted)).imp fun {a b} hle hb ha => hb ?_
  rw [ha] at hle
  exact le_antisymm hle (nil_le _)

/-- **A device is kept once** if no other device has its size, or it stands in the list once. -/
theorem sfdiskFiltered_nodup (S : Sorter Partition) (hsame : SameDeviceSameLine partitions)
    (hapart : SizesApart partitions) :
    ((sfdiskFiltered S partitions).map Partition.device).Nodup := by
  obtain ⟨sorted, hperm, hsorted, hfiltered⟩ := sfdiskFiltered_eq S partitions
  rw [hfiltered]
  refine nodup_map_uniqueBy fun a b c hsub hdevice => ?_
  have hmem : ∀ part ∈ [a, b, c], part ∈ partitions := fun part hpart =>
    hperm.subset (hsub.subset hpart)
  have hsizes := hsorted.sublist hsub
  simp only [List.pairwise_cons, List.mem_cons, List.not_mem_nil, or_false, forall_eq_or_imp,
    forall_eq] at hsizes
  obtain ⟨⟨hba, -⟩, hcb, -⟩ := hsizes
  -- What stands between two partitions of one device has their size.
  have hac := (hsame a (hmem a (by simp)) c (hmem c (by simp)) hdevice).1
  have hab : a.size = b.size := le_antisymm (hac ▸ hcb) hba
  by_contra hne
  have hcount := hapart a (hmem a (by simp)) b (hmem b (by simp)) hab (Ne.symm hne)
  rw [← (hperm.map Partition.device).count_eq] at hcount
  have htwo := (hsub.map Partition.device).count_le a.device
  rw [hcount, List.map_cons, List.map_cons, List.map_singleton, ← hdevice, List.count_cons_self,
    List.count_cons_of_ne hne, List.count_singleton_self] at htwo
  omega

/-- **A device is kept twice** in some order otherwise. -/
theorem exists_sfdiskFiltered_twice (hsame : SameDeviceSameLine partitions) {p q : Partition}
    (hp : p ∈ partitions) (hq : q ∈ partitions) (hsize : p.size = q.size)
    (hne : p.device ≠ q.device) (hcount : (partitions.map Partition.device).count p.device ≠ 1) :
    ∃ S : Sorter Partition, ¬ ((sfdiskFiltered S partitions).map Partition.device).Nodup := by
  have hrest := List.perm_cons_erase hp
  have hq' : q ∈ partitions.erase p :=
    (List.mem_erase_of_ne fun h => hne (congrArg Partition.device h).symm).mpr hq
  have hrest' := List.perm_cons_erase hq'
  have hagain : p.device ∈ ((partitions.erase p).erase q).map Partition.device := by
    rw [(hrest.map _).count_eq, List.map_cons, (hrest'.map _ |>.cons _).count_eq, List.map_cons,
      List.count_cons_self, List.count_cons_of_ne hne.symm] at hcount
    exact List.count_pos_iff.mp (by omega)
  obtain ⟨again, hagain, hdevice⟩ := List.mem_map.mp hagain
  have hall : partitions.Perm (p :: q :: again :: ((partitions.erase p).erase q).erase again) :=
    hrest.trans ((hrest'.trans ((List.perm_cons_erase hagain).cons q)).cons p)
  have hagainSize : again.size = p.size :=
    (hsame again (List.mem_of_mem_erase (List.mem_of_mem_erase hagain)) p hp hdevice).1
  exact exists_sfdiskFiltered_repeated hall hne.symm hdevice hsize.ge (by rw [hagainSize, hsize])

end Filter

section Lines

variable {partitions : List Partition} {isEfi : Bool} {S : Sorter Partition}

/-- There are no more lines than devices, and a line for each partition that is kept. -/
theorem length_le_of_oneLineEach
    (h : OneLineEach partitions isEfi (genSfdiskCommand S partitions isEfi)) :
    (lines (genSfdiskCommand S partitions isEfi)).length ≤ (sfdiskFiltered S partitions).length + 2 ∧
      ((sfdiskFiltered S partitions).map Partition.device).Nodup := by
  obtain ⟨parts, hlines, hparts, hnodup, -, -⟩ := h
  have hsub : parts.map Partition.device ⊆ (sfdiskFiltered S partitions).map Partition.device := by
    intro device hdevice
    obtain ⟨part, hpart, rfl⟩ := List.mem_map.mp hdevice
    exact sfdiskFiltered_covers S (hparts hpart)
  have hsubperm := List.subperm_of_subset hnodup hsub
  have hcount := hsubperm.length_le
  have hkept := @length_le_lines_genSfdiskCommand S partitions isEfi
  rw [List.length_map, List.length_map] at hcount
  rw [hlines, List.cons_append, List.length_cons, List.length_append, List.length_map] at hkept ⊢
  refine ⟨by simpa using hcount, ?_⟩
  refine (hsubperm.perm_of_length_le ?_).nodup_iff.mp hnodup
  rw [List.length_map, List.length_map]
  simpa using hkept

theorem exists_kept_newline (hsame : SameDeviceSameLine partitions) {part : Partition}
    (hpart : part ∈ partitions) (hnewline : '\n' ∈ part.size) :
    ∃ kept ∈ sfdiskFiltered S partitions, '\n' ∈ kept.size := by
  obtain ⟨kept, hkept, hdevice⟩ := List.mem_map.mp (sfdiskFiltered_covers S hpart)
  refine ⟨kept, hkept, ?_⟩
  rwa [(hsame kept (sfdiskFiltered_subset S hkept) part hpart hdevice).1]

/-- **When there is one line for each device**, whatever the sorts do with equal keys. -/
theorem oneLineEach_iff (hsame : SameDeviceSameLine partitions) :
    (∀ S, OneLineEach partitions isEfi (genSfdiskCommand S partitions isEfi)) ↔
      SizesApart partitions ∧ ∀ part ∈ partitions, '\n' ∉ part.size := by
  constructor
  · refine fun h => ⟨fun p hp q hq hsize hne => ?_, fun part hpart hnewline => ?_⟩
    · by_contra hcount
      obtain ⟨S, hS⟩ := exists_sfdiskFiltered_twice hsame hp hq hsize hne hcount
      exact hS (length_le_of_oneLineEach (h S)).2
    · obtain ⟨kept, hkept, hnewline⟩ := @exists_kept_newline _ .stable hsame part hpart hnewline
      have hmore := @length_lt_lines_genSfdiskCommand _ _ isEfi kept hkept hnewline
      exact absurd (length_le_of_oneLineEach (h .stable)).1 (not_le_of_gt hmore)
  · rintro ⟨hapart, hnewline⟩ S
    exact ⟨sfdiskFiltered S partitions,
      lines_genSfdiskCommand fun part hpart => hnewline part (sfdiskFiltered_subset S hpart),
      sfdiskFiltered_subset S, sfdiskFiltered_nodup S hsame hapart,
      fun part => sfdiskFiltered_covers S, sfdiskFiltered_sizes S⟩

end Lines

/-- A btrfs root with a subvolume for /home, and between them a partition on another device. -/
def rootDataAndHome (dataSize : Str) : List Partition :=
  [{ Partition.empty with
      fstype := lit "btrfs", mountpoint := ['/'], device := lit "/dev/sda2", size := lit "50G" },
    { Partition.empty with
      fstype := lit "btrfs", mountpoint := lit "/data", device := lit "/dev/sda3",
      size := dataSize },
    { Partition.empty with
      fstype := lit "btrfs", mountpoint := lit "/home", device := lit "/dev/sda2",
      size := lit "50G", subvolume := some (lit "/@home") }]

theorem sameDeviceSameLine_rootDataAndHome {dataSize : Str} :
    SameDeviceSameLine (rootDataAndHome dataSize) := by
  have hne : lit "/dev/sda2" ≠ lit "/dev/sda3" := by simp [lit_eq]
  simp [SameDeviceSameLine, rootDataAndHome, hne, hne.symm]

theorem oneLineEach_iff_smallData :
    (∀ S, OneLineEach (rootDataAndHome (lit "20G")) true
        (genSfdiskCommand S (rootDataAndHome (lit "20G")) true)) ↔
      SizesApart (rootDataAndHome (lit "20G")) ∧
        ∀ part ∈ rootDataAndHome (lit "20G"), '\n' ∉ part.size :=
  oneLineEach_iff sameDeviceSameLine_rootDataAndHome

/-- The sorts may leave the list as it is: three lines for two devices. -/
theorem genSfdiskCommand_sameSize :
    genSfdiskCommand (.returning (rootDataAndHome (lit "50G"))) (rootDataAndHome (lit "50G")) true =
        lit "label: gpt\ntype=L,size=50G\ntype=L,size=50G\ntype=L,size=50G\n" ∧
      SameDeviceSameLine (rootDataAndHome (lit "50G")) ∧
      ¬ OneLineEach (rootDataAndHome (lit "50G")) true
        (genSfdiskCommand (.returning (rootDataAndHome (lit "50G"))) (rootDataAndHome (lit "50G"))
          true) := by
  refine ⟨by decide +kernel, sameDeviceSameLine_rootDataAndHome, fun h => ?_⟩
  have htwice : (sfdiskFiltered (.returning (rootDataAndHome (lit "50G")))
      (rootDataAndHome (lit "50G"))).map Partition.device =
        [lit "/dev/sda2", lit "/dev/sda3", lit "/dev/sda2"] := by
    decide +kernel
  have hnodup := (length_le_of_oneLineEach h).2
  rw [htwice] at hnodup
  simp at hnodup

end CliInstaller
