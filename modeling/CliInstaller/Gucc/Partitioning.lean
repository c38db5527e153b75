import Mathlib.Algebra.GroupWithZero.Nat
import CliInstaller.General.Sed
import CliInstaller.General.Sorting
import CliInstaller.Gucc.Partition
import CliInstaller.Gucc.StringUtils

/-!
# `gucc::disk`: the commands for sfdisk

The partitions are sorted by mountpoint, by device and by decreasing size, and adjacent partitions
of one device are merged; the rest have one line each.

Source: `gucc/src/partitioning.cpp`.

## Main definitions

* `sfdiskFiltered`: the partitions that have a line
* `genSfdiskCommand`: the commands
* `sfdiskLabel`, `partitionLine`: the first line, and the line of a partition

## Main results

* `genSfdiskCommand_eq`: the commands are the label and the lines
* `lines_genSfdiskCommand`, `length_lines_genSfdiskCommand`: the lines of the commands
* `exists_sfdiskFiltered_repeated`: how a device comes to have two lines
-/

namespace CliInstaller

open Sorting

def convertFsname (fsname : Str) : Str :=
  if fsname = lit "fat16" || fsname = lit "fat32" then lit "vfat"
  else if fsname = lit "linuxswap" then lit "swap"
  else fsname

def getPartTypeAlias (fsname : Str) : Str :=
  if fsname = lit "vfat" then ['U'] else if fsname = lit "swap" then ['S'] else ['L']

/-- The line of a partition. -/
def sfdiskLine (part : Partition) : Str :=
  let fsname := convertFsname part.fstype
  lit "type=" ++ getPartTypeAlias fsname ++
    (if !part.size.isEmpty then lit ",size=" ++ part.size else []) ++
    (if fsname = lit "vfat" then lit ",bootable" else []) ++ ['\n']

/-- Sort by mountpoint, device and decreasing size, and merge adjacent partitions of one device. -/
def sfdiskFiltered (S : Sorter Partition) (partitions : List Partition) : List Partition :=
  let partitionsSorted := S.byKey Partition.mountpoint partitions
  let partitionsSorted := S.byKey Partition.device partitionsSorted
  let partitionsSorted := S.byKeyDesc Partition.size partitionsSorted
  uniqueBy Partition.device partitionsSorted

def genSfdiskCommand (S : Sorter Partition) (partitions : List Partition) (isEfi : Bool) : Str :=
  (sfdiskFiltered S partitions).foldl (fun sfdiskCommands part => sfdiskCommands ++ sfdiskLine part)
    (if isEfi then lit "label: gpt\n" else lit "label: dos\n")

/-- **The commands are the label and one line for each partition** that is kept. -/
theorem genSfdiskCommand_eq (S : Sorter Partition) (partitions : List Partition) (isEfi : Bool) :
    genSfdiskCommand S partitions isEfi =
      (if isEfi then lit "label: gpt\n" else lit "label: dos\n") ++
        (sfdiskFiltered S partitions).flatMap sfdiskLine := by
  rw [genSfdiskCommand, List.foldl_append_eq_append, ← List.flatMap_def]

/-! ## The lines of the commands -/

/-- The first line. -/
def sfdiskLabel (isEfi : Bool) : Str := if isEfi then lit "label: gpt" else lit "label: dos"

/-- The line of a partition, without its end. -/
def partitionLine (part : Partition) : Str := (sfdiskLine part).dropLast

section Lines

variable {S : Sorter Partition} {partitions : List Partition} {isEfi : Bool}

theorem sfdiskLine_eq (part : Partition) : sfdiskLine part = partitionLine part ++ ['\n'] := by
  rw [partitionLine, sfdiskLine, List.dropLast_concat]

/-- A line has the newlines of the size. -/
theorem count_newline_partitionLine (part : Partition) :
    (partitionLine part).count '\n' = part.size.count '\n' := by
  have halias : ∀ fsname, (getPartTypeAlias fsname).count '\n' = 0 := by
    intro fsname
    rw [getPartTypeAlias]
    split_ifs
    · rfl
    · rfl
    · rfl
  have hsize : (if !part.size.isEmpty then lit ",size=" ++ part.size else []).count '\n' =
      part.size.count '\n' := by
    rcases part.size with _ | ⟨c, size⟩
    · rfl
    · simp [lit_eq, List.count_cons]
  have hbootable : ∀ fsname, (if fsname = lit "vfat" then lit ",bootable" else []).count '\n' = 0 := by
    intro fsname
    split_ifs
    · simp [lit_eq]
    · rfl
  have htype : (lit "type=").count '\n' = 0 := by simp [lit_eq]
  rw [partitionLine, sfdiskLine, List.dropLast_concat, List.count_append, List.count_append,
    List.count_append, htype, halias, hsize, hbootable]
  omega

theorem genSfdiskCommand_unlines :
    genSfdiskCommand S partitions isEfi =
      Sed.unlines (sfdiskLabel isEfi :: (sfdiskFiltered S partitions).map partitionLine) [] := by
  have hlabel : (if isEfi then lit "label: gpt\n" else lit "label: dos\n") =
      sfdiskLabel isEfi ++ ['\n'] := by
    rcases isEfi with _ | _
    · simp [sfdiskLabel, lit_eq]
    · simp [sfdiskLabel, lit_eq]
  rw [genSfdiskCommand_eq, hlabel, Sed.unlines, List.append_nil, List.flatMap_cons, List.flatMap_map]
  exact congrArg (_ ++ ·) (List.flatMap_congr fun part _ => sfdiskLine_eq part)

/-- **The lines of the commands**, where no size has a newline. -/
theorem lines_genSfdiskCommand (h : ∀ part ∈ sfdiskFiltered S partitions, '\n' ∉ part.size) :
    lines (genSfdiskCommand S partitions isEfi) =
      sfdiskLabel isEfi :: (sfdiskFiltered S partitions).map partitionLine ++ [[]] := by
  rw [genSfdiskCommand_unlines, lines]
  refine Sed.splitOn_unlines (List.forall_mem_cons.mpr ⟨?_, ?_⟩) List.not_mem_nil
  · rw [sfdiskLabel]
    split_ifs
    · simp [lit_eq]
    · simp [lit_eq]
  · intro line hline
    obtain ⟨part, hpart, rfl⟩ := List.mem_map.mp hline
    have hcount := count_newline_partitionLine part
    rw [List.count_eq_zero.mpr (h part hpart)] at hcount
    exact List.count_eq_zero.mp hcount

/-- **How many lines there are**: a newline in a size makes one more. -/
theorem length_lines_genSfdiskCommand :
    (lines (genSfdiskCommand S partitions isEfi)).length =
      ((sfdiskFiltered S partitions).map fun part => part.size.count '\n' + 1).sum + 2 := by
  have hlabel : (sfdiskLabel isEfi ++ ['\n']).count '\n' = 1 := by
    rw [sfdiskLabel]
    split_ifs
    · simp [lit_eq]
    · simp [lit_eq]
  rw [lines, Splitting.length_splitOn, genSfdiskCommand_unlines, Sed.unlines, List.append_nil,
    List.flatMap_cons, List.count_append, hlabel, List.count_flatMap, List.map_map]
  have hline : (List.count '\n' ∘ fun line => line ++ ['\n']) ∘ partitionLine =
      fun part => part.size.count '\n' + 1 := by
    funext part
    rw [Function.comp_apply, Function.comp_apply, List.count_append, count_newline_partitionLine]
    rfl
  rw [hline]
  omega

/-- A size with a newline makes more lines than there are partitions that are kept. -/
theorem length_lt_lines_genSfdiskCommand {part : Partition}
    (hpart : part ∈ sfdiskFiltered S partitions) (hnewline : '\n' ∈ part.size) :
    (sfdiskFiltered S partitions).length + 2 < (lines (genSfdiskCommand S partitions isEfi)).length := by
  rw [length_lines_genSfdiskCommand]
  obtain ⟨before, after, hsplit⟩ := List.append_of_mem hpart
  have hone : ∀ l : List Partition, l.length ≤ (l.map fun part => part.size.count '\n' + 1).sum := by
    intro l
    induction l with
    | nil => rfl
    | cons part l ih =>
      rw [List.length_cons, List.map_cons, List.sum_cons]
      omega
  have hcount := List.count_pos_iff.mpr hnewline
  have hbefore := hone before
  have hafter := hone after
  rw [hsplit, List.length_append, List.length_cons, List.map_append, List.map_cons, List.sum_append,
    List.sum_cons]
  omega

/-- There are at least as many lines as partitions that are kept. -/
theorem length_le_lines_genSfdiskCommand :
    (sfdiskFiltered S partitions).length + 2 ≤ (lines (genSfdiskCommand S partitions isEfi)).length := by
  by_cases hnewline : ∃ part ∈ sfdiskFiltered S partitions, '\n' ∈ part.size
  · obtain ⟨part, hpart, hnewline⟩ := hnewline
    exact (length_lt_lines_genSfdiskCommand hpart hnewline).le
  · push Not at hnewline
    rw [lines_genSfdiskCommand hnewline]
    simp

end Lines

/-- The partitions before merging are those given, by decreasing size. -/
theorem sfdiskFiltered_eq (S : Sorter Partition) (partitions : List Partition) :
    ∃ sorted : List Partition, sorted.Perm partitions ∧
      (sorted.Pairwise fun a b => b.size ≤ a.size) ∧
      sfdiskFiltered S partitions = uniqueBy Partition.device sorted :=
  ⟨S.byKeyDesc Partition.size (S.byKey Partition.device (S.byKey Partition.mountpoint partitions)),
    ((S.byKeyDesc_perm _ _).trans (S.byKey_perm _ _)).trans (S.byKey_perm _ _),
    S.byKeyDesc_ordered _ _, rfl⟩

theorem sfdiskFiltered_subset (S : Sorter Partition) {partitions : List Partition} :
    sfdiskFiltered S partitions ⊆ partitions := by
  obtain ⟨sorted, hperm, -, hfiltered⟩ := sfdiskFiltered_eq S partitions
  rw [hfiltered]
  exact fun part hpart => hperm.subset (mem_of_mem_uniqueBy hpart)

theorem sfdiskFiltered_covers (S : Sorter Partition) {partitions : List Partition} {part : Partition}
    (h : part ∈ partitions) :
    part.device ∈ (sfdiskFiltered S partitions).map Partition.device := by
  obtain ⟨sorted, hperm, -, hfiltered⟩ := sfdiskFiltered_eq S partitions
  rw [hfiltered, mem_map_uniqueBy]
  exact List.mem_map_of_mem (hperm.symm.subset h)

theorem exists_sfdiskFiltered_eq {sorted partitions : List Partition} (hp : sorted.Perm partitions)
    (ho : sorted.Pairwise fun a b => b.size ≤ a.size) :
    ∃ S : Sorter Partition, sfdiskFiltered S partitions = uniqueBy Partition.device sorted := by
  refine ⟨Sorter.returning sorted, ?_⟩
  rw [sfdiskFiltered, Sorter.returning_byKeyDesc _ ho]
  exact (hp.trans (Sorter.byKey_perm _ _ _).symm).trans (Sorter.byKey_perm _ _ _).symm

/-- **A device has two lines** in some order if a partition of another device may stand between two
of its partitions. -/
theorem exists_sfdiskFiltered_repeated {partitions others : List Partition}
    {first between again : Partition}
    (hperm : partitions.Perm (first :: between :: again :: others))
    (hbetween : between.device ≠ first.device) (hagain : again.device = first.device)
    (hsize : between.size ≤ first.size) (hsize' : again.size ≤ between.size) :
    ∃ S : Sorter Partition, ¬ ((sfdiskFiltered S partitions).map Partition.device).Nodup := by
  set l := first :: between :: again :: others with hl
  obtain ⟨S, hS⟩ := exists_sfdiskFiltered_eq
    ((Sorter.stable.byKeyDesc_perm Partition.size l).trans hperm.symm)
    (Sorter.stable.byKeyDesc_ordered Partition.size l)
  refine ⟨S, ?_⟩
  have hsub : [first, between, again].Sublist (Sorter.stable.byKeyDesc Partition.size l) := by
    refine Sorter.sublist_stable_byKeyDesc ?_ ?_
    · exact ((List.nil_sublist _).cons_cons _).cons_cons _ |>.cons_cons _
    · simp [hsize, hsize', hsize'.trans hsize]
  have hchain : [first.device, between.device, first.device].IsChain (· ≠ ·) := by
    simp [hbetween, hbetween.symm]
  have hkept := sublist_map_uniqueBy hchain (by simpa [hagain] using hsub.map Partition.device)
  rw [hS]
  intro hnodup
  simpa using hnodup.sublist hkept

end CliInstaller
