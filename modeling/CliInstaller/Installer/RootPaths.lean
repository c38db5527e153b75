import CliInstaller.Gucc.SubvolumeFrame
import CliInstaller.Installer.MountSteps
import CliInstaller.Installer.PartitionsPrepared

/-!
# The two ways to a root partition

Both interfaces append the root partition to the schema and then set up the subvolumes of a btrfs
file system. `apply_root_partition_actions` asks for the file system of the record that it moved
into the schema, which is empty by then; `make_partitions_prepared` asks its argument. So the first
never sets up subvolumes and the second always does.

Source: `src/tui.cpp`, `src/simple_tui.cpp`, `src/disk.cpp`.

## Main definitions

* `actionsSchema`, `preparedSchema`: the schema that each way leaves
* `SameRootPartition`: both are given the same root
* `AcceptsSubvolumes`: what the user and the commands answer about the subvolumes

## Main results

* `actionsSchema_eq`: what the first way leaves
* `preparedSchema_named`: what the second way leaves
* `rootPaths_disagree`: they are never the same
-/

namespace CliInstaller

open Sorting Splitting

/-- The schema that `apply_root_partition_actions` leaves, where it succeeds. -/
def actionsSchema (S : Sorter Partition) (devices : Devices) (replies : RootReplies)
    (selection : RootSelection) (m : Mounting) : Option (List Partition) :=
  match applyRootPartitionActions S devices replies selection m with
  | .ok (true, m) => some m.schema
  | _ => none

/-- The schema that `make_partitions_prepared` leaves after one string, where no fault ends it. -/
def preparedSchema (S : Sorter Partition) (devices : Devices) (prepared : PreparedSettings)
    (step : PreparedStep) (m : Mounting) : Option (List Partition) :=
  match (makePartitionsPrepared S devices prepared).step step ⟨m, false⟩ with
  | (.ok (), s) => some s.schema
  | _ => none

/-- **The same btrfs root**: its device, its mount options, and what the commands answer when it is
mounted. -/
structure SameRootPartition (selection : RootSelection) (replies : RootReplies)
    (prepared : PreparedSettings) (step : PreparedStep) : Prop where
  part : ∃ size, partInfo step.readyPart =
    .ok ⟨selection.device, ['/'], size, lit "btrfs", lit "root"⟩
  rootFs : prepared.rootFs = lit "btrfs"
  fstype : rootFstype replies selection = lit "btrfs"
  mountOpts : prepared.mountOptsInfo = selection.mountOpts
  mount : step.current.mount = replies.mount
  partUuid : step.partUuid = replies.partUuid
  subvolumes : step.subvolumes = replies.subvolumes
  subvolume : step.subvolume = replies.subvolume

/-- **The subvolumes are accepted**: those that exist are listed one a line and each is given a
mountpoint; where there are none, the automatic ones are agreed to. -/
structure AcceptsSubvolumes (replies : RootReplies) (existing : List Str) : Prop where
  found : replies.subvolumes = ['\n'].intercalate existing
  listed : replies.subvolume.existing = ['\n'].intercalate existing
  named : ∀ name ∈ existing, name ≠ [] ∧ '\n' ∉ name
  doSubvolumes : replies.doSubvolumes = true
  automatic : replies.subvolume.mode = some 0
  doCreate : replies.subvolume.doCreate = true
  mountpoints : existing.length ≤ replies.subvolume.mountpoints.length

section Subvolumes

variable {S : Sorter Partition} {partitions result : List Partition} {subvols : List BtrfsSubvolume}

/-- A subvolume that is in the schema stays in it, and each round adds one. -/
theorem appendSubvolumes_named (h : appendSubvolumes subvols partitions = .ok result)
    (hnamed : subvols ≠ [] ∨ ∃ part ∈ partitions, part.subvolume ≠ none) :
    ∃ part ∈ result, part.subvolume ≠ none := by
  induction subvols generalizing partitions with
  | nil =>
    obtain rfl := Except.ok.inj h
    exact hnamed.resolve_left (not_not.mpr rfl)
  | cons subvol subvols ih =>
    obtain ⟨hround, hrest⟩ := appendSubvolumes_of_cons h
    obtain ⟨part, hmem, -, hname⟩ := exists_written hround
    refine ih hrest (.inr ⟨part, hmem, ?_⟩)
    rw [hname]
    exact Option.some_ne_none _

theorem appendAndFindRoot_named (h : appendAndFindRoot S partitions subvols = .ok result)
    (hroot : HasRoot partitions) (hne : subvols ≠ []) : ∃ part ∈ result, part.subvolume ≠ none := by
  rcases appendAndFindRoot_cases h with ⟨hempty | hnone, -⟩ | ⟨unsorted, hunsorted, rfl⟩
  · exact absurd hempty hne
  · exact absurd hroot (findRootBtrfsPart_eq_none.mp hnone)
  · obtain ⟨part, hmem, hname⟩ := appendSubvolumes_named hunsorted (.inl hne)
    exact ⟨part, (S.byKey_perm Partition.device unsorted).mem_iff.mpr hmem, hname⟩

end Subvolumes

section Paths

variable {S : Sorter Partition} {devices : Devices} {prepared : PreparedSettings}
  {step : PreparedStep} {selection : RootSelection} {replies : RootReplies} {existing : List Str}
  {m : Mounting} {schema : List Partition}

/-- **The first way** leaves the root as it was appended. -/
theorem actionsSchema_eq (h : actionsSchema S devices replies selection m = some schema) :
    ∃ crypt, schema = m.schema ++ [rootPartition replies selection crypt] := by
  rw [actionsSchema, applyRootPartitionActions_eq] at h
  split_ifs at h
  obtain rfl := Option.some.inj h
  exact ⟨_, congrArg (· ++ [_]) mountPartition_schema⟩

theorem mountedPart_schema {part : ReadyPartition} {fileSys : Str} {m' : Mounting}
    (h : mountedPart devices prepared step part fileSys m = .ok m') :
    ∃ crypt, m'.schema = m.schema ++ [preparedPartition prepared step part crypt] := by
  obtain ⟨m₁, hmount, hrest⟩ := bind_eq_ok.mp h
  obtain rfl := Except.ok.inj hrest
  obtain ⟨mountOpts, -, hrest⟩ := bind_eq_ok.mp hmount
  obtain rfl := Except.ok.inj hrest
  exact ⟨_, congrArg (· ++ [_]) mountPartition_schema⟩

/-- Where the subvolumes are accepted, they are mounted or created. -/
theorem preparedSubvolumes_named {part : ReadyPartition} {partitions : List Partition}
    (hroot : HasRoot partitions) (htype : part.type = lit "root")
    (hsame : SameRootPartition selection replies prepared step)
    (haccepts : AcceptsSubvolumes replies existing)
    (h : preparedSubvolumes S prepared step part partitions = .ok schema) :
    ∃ part ∈ schema, part.subvolume ≠ none := by
  have hsome : (findRootBtrfsPart partitions).isNone = false := by
    rw [Option.isNone_eq_false_iff, Option.isSome_iff_ne_none, Ne, findRootBtrfsPart_eq_none]
    exact not_not.mpr hroot
  have hlines : makeMultiline step.subvolume.existing false '\n' = existing := by
    rw [hsame.subvolume, haccepts.listed]
    show makeSplitView _ _ = _
    rw [makeSplitView_eq, pieces_intercalate fun name hname => (haccepts.named name hname).2]
    exact List.filter_eq_self.mpr fun name hname => by simp [(haccepts.named name hname).1]
  rw [preparedSubvolumes, if_pos (by simp [htype, hsame.rootFs])] at h
  rcases hexisting : existing with _ | ⟨name, names⟩
  · rw [if_neg (by simp [hsame.subvolumes, haccepts.found, hexisting]), btrfsCreateSubvols,
      if_neg (by decide +kernel), if_neg (by simp [hsome]), if_neg (by decide +kernel),
      if_neg (by simp)] at h
    exact appendAndFindRoot_named h hroot (List.cons_ne_nil _ _)
  · have hfound : ¬ replies.subvolumes.isEmpty = true := by
      intro hempty
      rw [hsame.subvolume, haccepts.listed, ← haccepts.found, List.isEmpty_iff.mp hempty,
        hexisting] at hlines
      cases hlines
    rw [if_pos (by simpa [hsame.subvolumes] using hfound), mountExistingSubvols,
      if_neg (by simp [hsome]), hlines] at h
    have hmountpoints := haccepts.mountpoints
    rw [← hsame.subvolume] at hmountpoints
    rw [withMountpoints, if_neg (Nat.not_lt.mpr hmountpoints)] at h
    refine appendAndFindRoot_named h hroot ?_
    rcases hlist : step.subvolume.mountpoints with _ | ⟨mountpoint, mountpoints⟩
    · simp [hlist, hexisting] at hmountpoints
    · simp [hexisting]

/-- **The second way** leaves subvolumes. -/
theorem preparedSchema_named (hsame : SameRootPartition selection replies prepared step)
    (haccepts : AcceptsSubvolumes replies existing)
    (h : preparedSchema S devices prepared step m = some schema) :
    ∃ part ∈ schema, part.subvolume ≠ none := by
  obtain ⟨size, hpart⟩ := hsame.part
  rw [preparedSchema, makePartitionsPrepared] at h
  simp only [hpart, Bool.false_eq_true, if_false] at h
  rcases hmounted : preparedPart devices prepared step
    ⟨selection.device, ['/'], size, lit "btrfs", lit "root"⟩ m with fault | m'
  · simp [hmounted] at h
  simp only [hmounted] at h
  rcases hsubvolumes : preparedSubvolumes S prepared step
    ⟨selection.device, ['/'], size, lit "btrfs", lit "root"⟩ m'.schema with fault | schema'
  · simp [hsubvolumes, PreparedRun.withSubvolumes] at h
  simp only [hsubvolumes, PreparedRun.withSubvolumes, Option.some.injEq] at h
  obtain rfl := h
  rw [preparedPart, if_neg (by simp [lit_eq]), if_pos rfl] at hmounted
  obtain ⟨crypt, hschema⟩ := mountedPart_schema hmounted
  refine preparedSubvolumes_named ?_ rfl hsame haccepts hsubvolumes
  rw [hschema]
  refine ⟨_, List.mem_append_right _ (List.mem_singleton_self _), ?_⟩
  simp [isRootBtrfsPart, preparedPartition]

end Paths

/-- **The two ways never leave the same schema.** -/
theorem rootPaths_disagree (S : Sorter Partition) (devices : Devices) (prepared : PreparedSettings)
    (step : PreparedStep) (selection : RootSelection) (replies : RootReplies) (existing : List Str)
    (m : Mounting) (schema : List Partition)
    (hsame : SameRootPartition selection replies prepared step)
    (haccepts : AcceptsSubvolumes replies existing)
    (hplain : ∀ part ∈ m.schema, part.subvolume = none)
    (hactions : actionsSchema S devices replies selection m = some schema) :
    preparedSchema S devices prepared step m ≠ some schema := by
  intro hprepared
  obtain ⟨crypt, rfl⟩ := actionsSchema_eq hactions
  obtain ⟨part, hmem, hname⟩ := preparedSchema_named hsame haccepts hprepared
  rcases List.mem_append.mp hmem with hmem | hmem
  · exact hname (hplain part hmem)
  · rw [List.mem_singleton.mp hmem] at hname
    exact hname rfl

/-- A new btrfs file system, without subvolumes. -/
def newBtrfs : RootSelection :=
  ⟨lit "/dev/sda2", lit "btrfs", lit "btrfs mkfs.btrfs -f", lit "noatime"⟩

/-- Formatting and the automatic subvolumes are agreed to. -/
def newBtrfsReplies : RootReplies :=
  { RootReplies.keep 1 ⟨true, true, []⟩ with
    doFormat := true, formatted := true, mountFstype := lit "btrfs", doSubvolumes := true
    subvolume := ⟨some 0, none, [], true, []⟩ }

/-- The string of the same root. -/
def newBtrfsStep : PreparedStep :=
  .keep ⟨lit "/dev/sda2", ['/'], lit "20G", lit "btrfs", lit "root"⟩

theorem sameRoot_newBtrfs : SameRootPartition newBtrfs newBtrfsReplies
    ⟨lit "grub", lit "btrfs", lit "noatime"⟩ newBtrfsStep where
  part := ⟨lit "20G", by decide +kernel⟩
  rootFs := rfl
  fstype := by decide +kernel
  mountOpts := rfl
  mount := rfl
  partUuid := rfl
  subvolumes := rfl
  subvolume := rfl

theorem acceptsSubvolumes_newBtrfs : AcceptsSubvolumes newBtrfsReplies [] where
  found := rfl
  listed := rfl
  named := by simp
  doSubvolumes := rfl
  automatic := rfl
  doCreate := rfl
  mountpoints := Nat.le_refl 0

theorem rootPaths_disagree_newBtrfs :
    preparedSchema .stable plainDevices ⟨lit "grub", lit "btrfs", lit "noatime"⟩ newBtrfsStep
        ⟨twoPartitions, [], [], []⟩ ≠
      some [rootPartition newBtrfsReplies newBtrfs ⟨.reset, []⟩] :=
  rootPaths_disagree .stable plainDevices ⟨lit "grub", lit "btrfs", lit "noatime"⟩ newBtrfsStep
    newBtrfs newBtrfsReplies [] ⟨twoPartitions, [], [], []⟩ _ sameRoot_newBtrfs
    acceptsSubvolumes_newBtrfs (by simp) (by decide +kernel)

/-- One way leaves the root alone, the other the root and two more subvolumes. -/
theorem rootPaths_newBtrfs :
    (actionsSchema .stable plainDevices newBtrfsReplies newBtrfs ⟨twoPartitions, [], [], []⟩).map
        (·.map fun part => (part.mountpoint, part.subvolume)) = some [(['/'], none)] ∧
      (preparedSchema .stable plainDevices ⟨lit "grub", lit "btrfs", lit "noatime"⟩ newBtrfsStep
          ⟨twoPartitions, [], [], []⟩).map
        (·.map fun part => (part.mountpoint, part.subvolume)) =
          some [(['/'], some (lit "/@")), (lit "/home", some (lit "/@home")),
            (lit "/var/cache", some (lit "/@cache"))] ∧
      ¬ ∀ S devices prepared step selection replies existing m schema,
        SameRootPartition selection replies prepared step → AcceptsSubvolumes replies existing →
          (∀ part ∈ m.schema, part.subvolume = none) →
            actionsSchema S devices replies selection m = some schema →
              preparedSchema S devices prepared step m = some schema := by
  have hactions : (actionsSchema .stable plainDevices newBtrfsReplies newBtrfs
      ⟨twoPartitions, [], [], []⟩) = some [rootPartition newBtrfsReplies newBtrfs ⟨.reset, []⟩] := by
    decide +kernel
  have hprepared : (preparedSchema .stable plainDevices ⟨lit "grub", lit "btrfs", lit "noatime"⟩
      newBtrfsStep ⟨twoPartitions, [], [], []⟩).map
        (·.map fun part => (part.mountpoint, part.subvolume)) =
      some [(['/'], some (lit "/@")), (lit "/home", some (lit "/@home")),
        (lit "/var/cache", some (lit "/@cache"))] := by
    decide +kernel
  refine ⟨by rw [hactions]; rfl, hprepared, fun h => ?_⟩
  have hsame := h .stable plainDevices ⟨lit "grub", lit "btrfs", lit "noatime"⟩ newBtrfsStep
    newBtrfs newBtrfsReplies [] ⟨twoPartitions, [], [], []⟩ _ sameRoot_newBtrfs
    acceptsSubvolumes_newBtrfs (by simp) hactions
  rw [hsame] at hprepared
  exact absurd (congrArg (Option.map List.length) hprepared) (by decide)

end CliInstaller
