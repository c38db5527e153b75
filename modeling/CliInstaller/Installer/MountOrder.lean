import CliInstaller.Gucc.UmountPartitions
import CliInstaller.Installer.MountedSchema
import CliInstaller.Installer.PartitionsPrepared

/-!
# The order in which the prepared partitions are mounted

`make_partitions_prepared` mounts its strings in the order they come in. A partition that is mounted
at a directory above an earlier one hides it; the subvolumes of a btrfs root are mounted where the
root was, which it was unmounted from before.

Source: `src/simple_tui.cpp`, `src/disk.cpp`, `gucc/src/btrfs.cpp`.

## Main definitions

* `subvolumeMounts`, `mountTable`: what is mounted, with the subvolumes
* `WellListed`: the partitions of an installation
* `OutermostFirst`, `Hidden`: a step mounts below what is mounted, and a partition nobody can see
* `AfterAncestors`: the condition on the list

## Main results

* `preparedPart_mounts`: what one step mounts
* `outermostFirst_iff`: one step
* `mountOrder_iff`: a run
-/

namespace CliInstaller

open Machines Sorting

/-! ## The table of mounts -/

/-- What the commands answer while subvolumes are mounted. -/
structure RemountReplies where
  /-- all new subvolumes are created -/
  created : Bool
  /-- `/mnt` is unmounted -/
  unmounted : Bool
  /-- the disk rotates -/
  rotational : Bool
  /-- the number of subvolumes that are mounted, up to the first that is not -/
  mounted : Nat
  deriving DecidableEq, Repr

/-- `umount /mnt`: what was mounted there last is gone. -/
def umountMnt (table : List Mount) : List Mount :=
  (table.reverse.eraseP fun mount => mount.dir = lit "/mnt" || mount.dir = lit "/mnt/").reverse

/-- The options of `mount_existing_subvols`. -/
def existingOpts (rotational : Bool) : Str :=
  if rotational then lit "autodefrag,compress=zlib,noatime,nossd,commit=120"
  else lit "compress=lzo,noatime,space_cache,ssd,commit=120"

/-- `gucc::fs::btrfs_mount_subvols`, up to the first mount that fails. -/
def btrfsMountSubvols (mounted : Nat) (subvols : List BtrfsSubvolume) (device mountOpts : Str)
    (table : List Mount) : List Mount :=
  table ++ (subvols.take mounted).map fun subvol =>
    ⟨device, lit "/mnt" ++ subvol.mountpoint,
      if subvol.subvolume.isEmpty then mountOpts
      else lit "subvol=" ++ subvol.subvolume ++ lit "," ++ mountOpts⟩

/-- The mounts of `utils::btrfs_create_subvols` and `utils::mount_existing_subvols`, as they are
called for the root. -/
def subvolumeMounts (prepared : PreparedSettings) (step : PreparedStep) (replies : RemountReplies)
    (part : ReadyPartition) (partitions : List Partition) (table : List Mount) : List Mount :=
  if part.type = lit "root" && prepared.rootFs = lit "btrfs" then
    match findRootBtrfsPart partitions with
    | none => table
    | some rootPart =>
      if !step.subvolumes.isEmpty then
        let table := if replies.unmounted then umountMnt table else table
        match withMountpoints (makeMultiline step.subvolume.existing false '\n')
            step.subvolume.mountpoints with
        | none => table
        | some subvolumes =>
          btrfsMountSubvols replies.mounted subvolumes rootPart.device
            (existingOpts replies.rotational) table
      else if !replies.created then table
      else
        btrfsMountSubvols replies.mounted defaultSubvolumes rootPart.device rootPart.mountOpts
          (if replies.unmounted then umountMnt table else table)
  else table

/-- A string of the prepared partitions, with what is answered about the subvolumes too. -/
structure TableStep extends PreparedStep where
  remount : RemountReplies
  deriving DecidableEq, Repr

/-- A run, with the table of what is mounted. -/
structure TableRun extends PreparedRun where
  table : List Mount
  deriving DecidableEq, Repr

/-- The table after a step: the mount of the partition, and those of its subvolumes. -/
def tableAfter (devices : Devices) (prepared : PreparedSettings) (step : TableStep) (s : TableRun) :
    List Mount :=
  if s.stopped then s.table
  else
    match partInfo step.readyPart with
    | .error _ => s.table
    | .ok part =>
      match preparedPart devices prepared step.toPreparedStep part s.toMounting with
      | .error _ => s.table
      | .ok m => subvolumeMounts prepared step.toPreparedStep step.remount part m.schema
        (s.table ++ m.mounts.drop s.mounts.length)

/-- **The loop of `make_partitions_prepared`, with the table of mounts.** -/
def mountTable (S : Sorter Partition) (devices : Devices) (prepared : PreparedSettings) :
    Machine TableRun TableStep (Except Fault Unit) where
  step step s :=
    let next := (makePartitionsPrepared S devices prepared).step step.toPreparedStep s.toPreparedRun
    (next.1, ⟨next.2, tableAfter devices prepared step s⟩)

/-- The state before the first string: nothing is mounted. -/
def TableRun.start (settings : MountSettings) : TableRun := ⟨.start settings, []⟩

/-! ## The order -/

/-- The partitions of an installation: their mountpoints are absolute and distinct, and the only one
of the type root is the one at "/". -/
structure WellListed (parts : List ReadyPartition) : Prop where
  absolute : ∀ part ∈ parts, part.mountpoint.head? = some '/'
  distinct : (parts.map ReadyPartition.mountpoint).Nodup
  root : ∃ root ∈ parts, root.mountpoint = ['/'] ∧
    ∀ part ∈ parts, part.type = lit "root" ↔ part = root

/-- The partition is mounted at its mountpoint. -/
def Mount.IsOf (mount : Mount) (part : ReadyPartition) : Prop :=
  mount.device = part.name ∧ mount.dir = lit "/mnt" ++ part.mountpoint

/-- A step that mounts a partition does so after those of the directories above it. -/
def OutermostFirst (S : Sorter Partition) (devices : Devices) (prepared : PreparedSettings)
    (parts : List ReadyPartition) (step : TableStep) (s : TableRun) : Prop :=
  ∀ part ∈ parts, ∀ mount : Mount, mount.IsOf part →
    ((mountTable S devices prepared).step step s).2.mounts = s.mounts ++ [mount] →
      ∀ other ∈ parts, StrictlyBelow part.mountpoint other.mountpoint →
        ∃ mount ∈ s.mounts, mount.IsOf other

/-- The partition is mounted, and always below something that was mounted later. -/
def Hidden (table : List Mount) (part : ReadyPartition) : Prop :=
  (∃ mount ∈ table, mount.IsOf part) ∧
    ∀ before mount after, table = before ++ mount :: after → mount.IsOf part →
      ∃ later ∈ after, StrictlyBelow mount.dir later.dir

/-- The partition is mounted when its string is read: for a boot partition that is on a UEFI system
only. -/
def PreparedStep.Mounts (step : PreparedStep) (system : Str) (part : ReadyPartition) : Prop :=
  if part.type = lit "boot" then system = lit "UEFI" ∧ step.bootMounted = true
  else (part.type = lit "root" ∨ part.type = lit "additional") ∧ step.current.mount.Succeeds

instance (step : PreparedStep) (system : Str) (part : ReadyPartition) :
    Decidable (step.Mounts system part) := by
  unfold PreparedStep.Mounts
  infer_instance

/-- **Every entry that is mounted comes after the entries of the directories above it**, and those
are mounted. -/
def AfterAncestors (system : Str) (parts : List ReadyPartition)
    (entries : List (TableStep × ReadyPartition)) : Prop :=
  ∀ before step part after, entries = before ++ (step, part) :: after → step.Mounts system part →
    ∀ other ∈ parts, StrictlyBelow part.mountpoint other.mountpoint →
      ∃ step', (step', other) ∈ before ∧ step'.Mounts system other

/-! ## One step -/

section Step

variable {S : Sorter Partition} {devices : Devices} {prepared : PreparedSettings}
  {step : PreparedStep} {part : ReadyPartition} {m m' : Mounting}

theorem mounts_boot {system : Str} (h : part.type = lit "boot") :
    step.Mounts system part ↔ system = lit "UEFI" ∧ step.bootMounted = true := by
  rw [PreparedStep.Mounts, if_pos h]

theorem mounts_mounted {system : Str} (h : part.type = lit "root" ∨ part.type = lit "additional") :
    step.Mounts system part ↔ step.current.mount.Succeeds := by
  have hboot : ¬ part.type = lit "boot" := by
    rcases h with h | h <;> rw [h] <;> decide +kernel
  rw [PreparedStep.Mounts, if_neg hboot, and_iff_right h]

theorem mountedPart_mounts {fileSys : Str}
    (h : mountedPart devices prepared step part fileSys m = .ok m') :
    m'.settings.list.mountpoint = m.settings.list.mountpoint ∧
      m'.settings.system = m.settings.system ∧
      ∃ opts, m'.mounts = m.mounts ++ if step.current.mount.Succeeds then
        [⟨part.name, m.settings.list.mountpoint ++ part.mountpoint, opts⟩] else [] := by
  obtain ⟨m₁, hmount, hrest⟩ := bind_eq_ok.mp h
  obtain rfl := Except.ok.inj hrest
  obtain ⟨mountOpts, -, hrest⟩ := bind_eq_ok.mp hmount
  obtain rfl := Except.ok.inj hrest
  refine ⟨?_, mountPartition_system, mountOpts, mountPartition_mounts⟩
  simp

/-- **What one step mounts.** -/
theorem preparedPart_mounts (habsolute : part.mountpoint.head? = some '/')
    (h : preparedPart devices prepared step part m = .ok m') :
    m'.settings.list.mountpoint = m.settings.list.mountpoint ∧
      m'.settings.system = m.settings.system ∧
      ∃ opts, m'.mounts = m.mounts ++ if step.Mounts m.settings.system part then
        [⟨part.name, m.settings.list.mountpoint ++ part.mountpoint, opts⟩] else [] := by
  unfold preparedPart at h
  split_ifs at h with hboot hroot hadditional
  · obtain rfl := Except.ok.inj h
    have hempty : part.mountpoint ≠ lit "(empty)" := by
      intro heq
      rw [heq, lit_eq] at habsolute
      exact absurd habsolute (by decide)
    simp only [mounts_boot hboot, bootPart, makeEspPrepared]
    by_cases hsystem : m.settings.system = lit "UEFI"
    · simp only [hsystem, ne_eq, not_true_eq_false, if_false, if_neg hempty, true_and]
      refine ⟨rfl, rfl, [], ?_⟩
      cases step.bootMounted <;> simp [Mounting.append]
    · simp [hsystem]
  · obtain ⟨hmountpoint, hsystem, opts, hmounts⟩ := mountedPart_mounts h
    refine ⟨hmountpoint, hsystem, opts, ?_⟩
    simp only [mounts_mounted (.inl hroot)]
    exact hmounts
  · obtain ⟨m₁, hmounted, hrest⟩ := bind_eq_ok.mp h
    obtain rfl := Except.ok.inj hrest
    obtain ⟨hmountpoint, hsystem, opts, hmounts⟩ := mountedPart_mounts hmounted
    refine ⟨hmountpoint, hsystem, opts, ?_⟩
    simp only [mounts_mounted (.inr hadditional)]
    exact hmounts
  · obtain rfl := Except.ok.inj h
    have hnot : ¬ step.Mounts m.settings.system part := by
      rw [PreparedStep.Mounts, if_neg hboot]
      exact fun hmounts => hmounts.1.elim hroot hadditional
    exact ⟨rfl, rfl, [], by rw [if_neg hnot, List.append_nil]⟩

/-- A step that no fault ends. -/
theorem mountTable_step {step : TableStep} {s : TableRun}
    (hread : partInfo step.readyPart = .ok part)
    (hruns : ((mountTable S devices prepared).step step s).2.stopped = false) :
    s.stopped = false ∧ ∃ m, preparedPart devices prepared step.toPreparedStep part s.toMounting =
        .ok m ∧
      ((mountTable S devices prepared).step step s).2.mounts = m.mounts ∧
      ((mountTable S devices prepared).step step s).2.settings = m.settings ∧
      ((mountTable S devices prepared).step step s).2.table =
        subvolumeMounts prepared step.toPreparedStep step.remount part m.schema
          (s.table ++ m.mounts.drop s.mounts.length) := by
  rcases hstopped : s.stopped with _ | _
  swap
  · simp [mountTable, makePartitionsPrepared, hstopped] at hruns
  refine ⟨rfl, ?_⟩
  rcases hpart : preparedPart devices prepared step.toPreparedStep part s.toMounting with fault | m
  · simp [mountTable, makePartitionsPrepared, hstopped, hread, hpart] at hruns
  refine ⟨m, rfl, ?_⟩
  rcases hsubvolumes : preparedSubvolumes S prepared step.toPreparedStep part m.schema with
    fault | schema
  · simp [mountTable, makePartitionsPrepared, hstopped, hread, hpart, hsubvolumes,
      PreparedRun.withSubvolumes] at hruns
  · simp [mountTable, makePartitionsPrepared, tableAfter, hstopped, hread, hpart, hsubvolumes,
      PreparedRun.withSubvolumes]

/-- Subvolumes are mounted for the root only. -/
theorem subvolumeMounts_of_ne {replies : RemountReplies} {partitions : List Partition}
    {table : List Mount} (h : part.type ≠ lit "root") :
    subvolumeMounts prepared step replies part partitions table = table := by
  rw [subvolumeMounts, if_neg (by simp [h])]

/-- Everything is mounted below the target. -/
def BelowTarget (table : List Mount) : Prop := ∀ mount ∈ table, lit "/mnt" <+: mount.dir

theorem BelowTarget.append {table table' : List Mount} (h : BelowTarget table)
    (h' : BelowTarget table') : BelowTarget (table ++ table') := by
  intro mount hmount
  rcases List.mem_append.mp hmount with hmount | hmount
  · exact h mount hmount
  · exact h' mount hmount

theorem BelowTarget.umountMnt {table : List Mount} (h : BelowTarget table) :
    BelowTarget (umountMnt table) := by
  intro mount hmount
  refine h mount ?_
  exact List.mem_reverse.mp (List.eraseP_subset (List.mem_reverse.mp hmount))

theorem BelowTarget.btrfsMountSubvols {table : List Mount} (h : BelowTarget table) (mounted : Nat)
    (subvols : List BtrfsSubvolume) (device mountOpts : Str) :
    BelowTarget (btrfsMountSubvols mounted subvols device mountOpts table) := by
  refine h.append ?_
  intro mount hmount
  obtain ⟨subvol, -, rfl⟩ := List.mem_map.mp hmount
  exact List.prefix_append _ _

theorem BelowTarget.subvolumeMounts {replies : RemountReplies} {partitions : List Partition}
    {table : List Mount} (h : BelowTarget table) :
    BelowTarget (subvolumeMounts prepared step replies part partitions table) := by
  have humount : BelowTarget (if replies.unmounted = true then CliInstaller.umountMnt table
      else table) := by
    split_ifs
    · exact h.umountMnt
    · exact h
  unfold CliInstaller.subvolumeMounts
  dsimp only
  generalize (if replies.unmounted = true then CliInstaller.umountMnt table else table) =
    remaining at humount ⊢
  split
  · split
    · exact h
    · split
      · split
        · exact humount
        · exact humount.btrfsMountSubvols _ _ _ _
      · split
        · exact h
        · exact humount.btrfsMountSubvols _ _ _ _
  · exact h

end Step

/-! ## Mountpoints -/

theorem strictlyBelow_append (dir : Str) {x m : Str} (hm : m ≠ []) :
    StrictlyBelow (dir ++ x) (dir ++ m) ↔ StrictlyBelow x m := by
  simp only [StrictlyBelow, List.getLast?_append_of_ne_nil dir hm]
  split_ifs
  · rw [List.prefix_append_right_inj, Ne, List.append_cancel_left_eq]
  · rw [List.append_assoc, List.prefix_append_right_inj, Ne, List.append_cancel_left_eq]

theorem ne_nil_of_absolute {x : Str} (habsolute : x.head? = some '/') : x ≠ [] := by
  rintro rfl
  cases habsolute

/-- An absolute path is below "/". -/
theorem strictlyBelow_root {x : Str} (habsolute : x.head? = some '/') (hne : x ≠ ['/']) :
    StrictlyBelow x ['/'] := by
  obtain ⟨rest, rfl⟩ := List.head?_eq_some_iff.mp habsolute
  exact ⟨⟨rest, rfl⟩, hne⟩

/-- The root of the target is below nothing in it. -/
theorem not_strictlyBelow_target {dir : Str} (h : lit "/mnt" <+: dir) :
    ¬ StrictlyBelow (lit "/mnt" ++ ['/']) dir := by
  obtain ⟨rest, rfl⟩ := h
  rcases rest with _ | ⟨c, rest⟩
  · rw [lit_eq]
    decide
  · rw [strictlyBelow_append _ (List.cons_ne_nil c rest)]
    intro hbelow
    have heq : c :: rest = ['/'] := hbelow.isPrefix.eq_of_length_le (by simp)
    rw [heq] at hbelow
    exact lt_irrefl _ hbelow.lt

/-! ## Runs -/

/-- What is known after some entries. -/
structure Reached (system : Str) (entries : List (TableStep × ReadyPartition)) (s : TableRun) :
    Prop where
  mounts : s.mounts.map (fun mount => (mount.device, mount.dir)) =
    (entries.filter fun entry => entry.1.Mounts system entry.2).map fun entry =>
      (entry.2.name, lit "/mnt" ++ entry.2.mountpoint)
  mountpoint : s.settings.list.mountpoint = lit "/mnt"
  system : s.settings.system = system
  table : BelowTarget s.table

section Runs

variable {S : Sorter Partition} {devices : Devices} {prepared : PreparedSettings} {system : Str}
  {entries : List (TableStep × ReadyPartition)} {parts : List ReadyPartition} {step : TableStep}
  {part : ReadyPartition} {s : TableRun}

theorem part_eq_of_mountpoint (hdistinct : (parts.map ReadyPartition.mountpoint).Nodup)
    {other : ReadyPartition} (hpart : part ∈ parts) (hother : other ∈ parts)
    (h : part.mountpoint = other.mountpoint) : part = other :=
  List.inj_on_of_nodup_map hdistinct hpart hother h

/-- What was mounted so far. -/
theorem Reached.mounted_iff (h : Reached system entries s)
    (hdistinct : (parts.map ReadyPartition.mountpoint).Nodup)
    (hsub : ∀ entry ∈ entries, entry.2 ∈ parts) (hpart : part ∈ parts) :
    (∃ mount ∈ s.mounts, mount.IsOf part) ↔
      ∃ step, (step, part) ∈ entries ∧ step.Mounts system part := by
  have hmem : (∃ mount ∈ s.mounts, mount.IsOf part) ↔
      (part.name, lit "/mnt" ++ part.mountpoint) ∈
        s.mounts.map fun mount => (mount.device, mount.dir) := by
    rw [List.mem_map]
    refine exists_congr fun mount => and_congr_right fun _ => ?_
    exact Prod.mk_inj.symm
  rw [hmem, h.mounts, List.mem_map]
  constructor
  · rintro ⟨⟨step, part'⟩, hentry, heq⟩
    obtain ⟨hentry, hmounts⟩ := List.mem_filter.mp hentry
    obtain ⟨-, hdir⟩ := Prod.mk.inj heq
    obtain rfl := part_eq_of_mountpoint hdistinct (hsub _ hentry) hpart
      (List.append_cancel_left hdir)
    exact ⟨step, hentry, of_decide_eq_true hmounts⟩
  · rintro ⟨step, hentry, hmounts⟩
    exact ⟨(step, part), List.mem_filter.mpr ⟨hentry, decide_eq_true hmounts⟩, rfl⟩

/-- The mount of a step, as it joins the others. -/
theorem Reached.stepMounts (h : Reached system entries s) (hread : partInfo step.readyPart = .ok part)
    (habsolute : part.mountpoint.head? = some '/')
    (hruns : ((mountTable S devices prepared).step step s).2.stopped = false) :
    ∃ (m : Mounting) (opts : Str),
      ((mountTable S devices prepared).step step s).2.mounts = s.mounts ++
        (if step.Mounts system part then
          [⟨part.name, lit "/mnt" ++ part.mountpoint, opts⟩] else []) ∧
      ((mountTable S devices prepared).step step s).2.settings = m.settings ∧
      m.settings.list.mountpoint = lit "/mnt" ∧ m.settings.system = system ∧
      ((mountTable S devices prepared).step step s).2.table =
        subvolumeMounts prepared step.toPreparedStep step.remount part m.schema
          (s.table ++ if step.Mounts system part then
            [⟨part.name, lit "/mnt" ++ part.mountpoint, opts⟩] else []) := by
  obtain ⟨-, m, hpart, hmounts, hsettings, htable⟩ := mountTable_step hread hruns
  obtain ⟨hmountpoint, hsystem, opts, hm⟩ := preparedPart_mounts habsolute hpart
  rw [h.mountpoint] at hmountpoint hm
  rw [h.system] at hsystem hm
  refine ⟨m, opts, hmounts.trans hm, hsettings, hmountpoint, hsystem, ?_⟩
  rw [htable, hm, List.drop_left]

theorem Reached.next (h : Reached system entries s) (hread : partInfo step.readyPart = .ok part)
    (habsolute : part.mountpoint.head? = some '/')
    (hruns : ((mountTable S devices prepared).step step s).2.stopped = false) :
    Reached system (entries ++ [(step, part)]) ((mountTable S devices prepared).step step s).2 := by
  obtain ⟨m, opts, hmounts, hsettings, hmountpoint, hsystem, htable⟩ :=
    h.stepMounts hread habsolute hruns
  refine ⟨?_, hsettings ▸ hmountpoint, hsettings ▸ hsystem, ?_⟩
  · rw [hmounts, List.map_append, h.mounts, List.filter_append, List.map_append]
    congr 1
    by_cases hstep : step.Mounts system part <;> simp [hstep]
  · rw [htable]
    refine BelowTarget.subvolumeMounts (h.table.append ?_)
    intro mount hmount
    split_ifs at hmount
    · rw [List.mem_singleton.mp hmount]
      exact List.prefix_append _ _
    · exact absurd hmount List.not_mem_nil

/-- **One step mounts a partition after those above it.** -/
theorem outermostFirst_iff (h : Reached system entries s)
    (hread : partInfo step.readyPart = .ok part)
    (hlisted : WellListed parts) (hsub : ∀ entry ∈ entries, entry.2 ∈ parts) (hpart : part ∈ parts)
    (hruns : ((mountTable S devices prepared).step step s).2.stopped = false) :
    OutermostFirst S devices prepared parts step s ↔
      (step.Mounts system part → ∀ other ∈ parts, StrictlyBelow part.mountpoint other.mountpoint →
        ∃ step', (step', other) ∈ entries ∧ step'.Mounts system other) := by
  obtain ⟨m, opts, hmounts, -⟩ := h.stepMounts hread (hlisted.absolute part hpart) hruns
  rw [OutermostFirst, hmounts]
  constructor
  · intro hfirst hstep other hother hbelow
    rw [if_pos hstep] at hfirst
    exact (h.mounted_iff hlisted.distinct hsub hother).mp
      (hfirst part hpart _ ⟨rfl, rfl⟩ rfl other hother hbelow)
  · intro hafter part' hpart' mount hmount heq other hother hbelow
    refine (h.mounted_iff hlisted.distinct hsub hother).mpr ?_
    rw [List.append_cancel_left_eq] at heq
    split_ifs at heq with hstep
    · obtain rfl := List.singleton_inj.mp heq
      obtain rfl := part_eq_of_mountpoint hlisted.distinct hpart hpart'
        (List.append_cancel_left hmount.2)
      exact hafter hstep other hother hbelow

/-- Every prefix of a run that no fault ends. -/
theorem run_reached {settings : MountSettings} (hmnt : settings.list.mountpoint = lit "/mnt")
    (hread : ∀ entry ∈ entries, partInfo entry.1.readyPart = .ok entry.2)
    (habsolute : ∀ entry ∈ entries, entry.2.mountpoint.head? = some '/')
    (hruns : ((mountTable S devices prepared).run (entries.map Prod.fst)
      (.start settings)).stopped = false) :
    Reached settings.system entries
      ((mountTable S devices prepared).run (entries.map Prod.fst) (.start settings)) := by
  induction entries using List.reverseRecOn with
  | nil =>
    exact ⟨rfl, hmnt, rfl, fun mount hmount => absurd hmount List.not_mem_nil⟩
  | append_singleton entries entry ih =>
    rw [List.map_append, Machine.run_append] at hruns ⊢
    have hlast : entry ∈ entries ++ [entry] :=
      List.mem_append_right _ (List.mem_singleton_self _)
    have hbefore := (mountTable_step (hread entry hlast) hruns).1
    refine (ih (fun e he => hread e (List.mem_append_left _ he))
      (fun e he => habsolute e (List.mem_append_left _ he)) hbefore).next
        (hread entry hlast) (habsolute entry hlast) hruns

theorem afterAncestors_concat : AfterAncestors system parts (entries ++ [(step, part)]) ↔
    AfterAncestors system parts entries ∧
      (step.Mounts system part → ∀ other ∈ parts, StrictlyBelow part.mountpoint other.mountpoint →
        ∃ step', (step', other) ∈ entries ∧ step'.Mounts system other) := by
  constructor
  · intro h
    refine ⟨?_, h entries step part [] rfl⟩
    rintro before step' part' after rfl
    exact h before step' part' (after ++ [(step, part)]) (by simp)
  · rintro ⟨hentries, hlast⟩ before step' part' after heq
    rcases List.eq_nil_or_concat after with rfl | ⟨after, entry, rfl⟩
    · obtain ⟨rfl, hentry⟩ := List.append_inj' heq rfl
      obtain ⟨rfl, rfl⟩ := Prod.mk.inj (List.singleton_inj.mp hentry)
      exact hlast
    · rw [List.concat_eq_append, ← List.cons_append, ← List.append_assoc] at heq
      obtain ⟨rfl, -⟩ := List.append_inj' heq rfl
      exact hentries before step' part' after rfl

/-- **A run mounts the outermost partitions first** iff its entries come in that order. -/
theorem along_outermostFirst_iff {settings : MountSettings}
    (hmnt : settings.list.mountpoint = lit "/mnt")
    (hread : ∀ entry ∈ entries, partInfo entry.1.readyPart = .ok entry.2)
    (hlisted : WellListed parts) (hsub : ∀ entry ∈ entries, entry.2 ∈ parts)
    (hruns : ((mountTable S devices prepared).run (entries.map Prod.fst)
      (.start settings)).stopped = false) :
    (mountTable S devices prepared).Along (OutermostFirst S devices prepared parts)
        (entries.map Prod.fst) (.start settings) ↔
      AfterAncestors settings.system parts entries := by
  -- Induction on the entries read: the last step is judged in the state the others reach.
  induction entries using List.reverseRecOn with
  | nil =>
    refine iff_of_true trivial fun before step part after heq => ?_
    cases before <;> cases heq
  | append_singleton entries entry ih =>
    obtain ⟨step, part⟩ := entry
    have hlast : (step, part) ∈ entries ++ [(step, part)] :=
      List.mem_append_right _ (List.mem_singleton_self _)
    have hreadBefore := fun e he => hread e (List.mem_append_left _ he)
    have hsubBefore := fun e he => hsub e (List.mem_append_left _ he)
    rw [List.map_append, Machine.run_append] at hruns
    have hbefore := (mountTable_step (hread _ hlast) hruns).1
    have hreached := run_reached hmnt hreadBefore
      (fun e he => hlisted.absolute _ (hsubBefore e he)) hbefore
    rw [afterAncestors_concat, List.map_append, Machine.along_append,
      ih hreadBefore hsubBefore hbefore]
    refine and_congr_right fun _ => ?_
    rw [← outermostFirst_iff hreached (hread _ hlast) hlisted hsubBefore (hsub _ hlast) hruns]
    exact and_iff_left trivial

end Runs

/-! ## Hidden partitions -/

/-- The partition is mounted, and nothing above it was mounted later. -/
def Visible (table : List Mount) (part : ReadyPartition) : Prop :=
  ∃ before mount after, table = before ++ mount :: after ∧ mount.IsOf part ∧
    ∀ later ∈ after, ¬ StrictlyBelow mount.dir later.dir

section Visible

variable {S : Sorter Partition} {devices : Devices} {prepared : PreparedSettings} {system : Str}
  {entries : List (TableStep × ReadyPartition)} {parts : List ReadyPartition} {step : TableStep}
  {part : ReadyPartition} {table : List Mount}

theorem Visible.not_hidden (h : Visible table part) : ¬ Hidden table part := by
  rintro ⟨-, hall⟩
  obtain ⟨before, mount, after, htable, hof, hfree⟩ := h
  obtain ⟨later, hlater, hbelow⟩ := hall before mount after htable hof
  exact hfree later hlater hbelow

theorem Visible.append {mount : Mount} (h : Visible table part)
    (hnot : ¬ StrictlyBelow (lit "/mnt" ++ part.mountpoint) mount.dir) :
    Visible (table ++ [mount]) part := by
  obtain ⟨before, own, after, rfl, hof, hfree⟩ := h
  refine ⟨before, own, after ++ [mount], by simp, hof, ?_⟩
  intro later hlater
  rcases List.mem_append.mp hlater with hlater | hlater
  · exact hfree later hlater
  · rw [List.mem_singleton.mp hlater, hof.2]
    exact hnot

theorem visible_concat {mount : Mount} (h : mount.IsOf part) : Visible (table ++ [mount]) part :=
  ⟨table, mount, [], rfl, h, fun _ hlater => absurd hlater List.not_mem_nil⟩

/-- The root of the target is never hidden. -/
theorem not_hidden_root (h : BelowTarget table) (hroot : part.mountpoint = ['/']) :
    ¬ Hidden table part := by
  rintro ⟨⟨mount, hmount, hof⟩, hall⟩
  obtain ⟨before, after, htable⟩ := List.append_of_mem hmount
  obtain ⟨later, hlater, hbelow⟩ := hall before mount after htable hof
  rw [hof.2, hroot] at hbelow
  refine not_strictlyBelow_target (h later ?_) hbelow
  rw [htable]
  exact List.mem_append_right _ (List.mem_cons_of_mem _ hlater)

/-- An entry is no other entry of the list. -/
theorem not_mem_entries
    (hdistinct : ((entries ++ [(step, part)]).map fun entry => entry.2.mountpoint).Nodup)
    {step' : TableStep} : (step', part) ∉ entries := by
  intro hmem
  rw [List.map_append, List.nodup_append] at hdistinct
  exact hdistinct.2.2 _ (List.mem_map_of_mem hmem) _ (List.mem_singleton_self _) rfl

/-- **In that order every partition stays visible**: the root comes before all others, and its
subvolumes are mounted before them. -/
theorem visible_of_afterAncestors {settings : MountSettings}
    (hmnt : settings.list.mountpoint = lit "/mnt")
    (hread : ∀ entry ∈ entries, partInfo entry.1.readyPart = .ok entry.2)
    (hlisted : WellListed parts) (hsub : ∀ entry ∈ entries, entry.2 ∈ parts)
    (hdistinct : (entries.map fun entry => entry.2.mountpoint).Nodup)
    (hruns : ((mountTable S devices prepared).run (entries.map Prod.fst)
      (.start settings)).stopped = false)
    (hafter : AfterAncestors settings.system parts entries) :
    ∀ entry ∈ entries, entry.1.Mounts settings.system entry.2 → entry.2.mountpoint ≠ ['/'] →
      Visible ((mountTable S devices prepared).run (entries.map Prod.fst)
        (.start settings)).table entry.2 := by
  induction entries using List.reverseRecOn with
  | nil => exact fun entry hentry => absurd hentry List.not_mem_nil
  | append_singleton entries entry ih =>
    obtain ⟨step, part⟩ := entry
    have hlast : (step, part) ∈ entries ++ [(step, part)] :=
      List.mem_append_right _ (List.mem_singleton_self _)
    have hreadBefore := fun e he => hread e (List.mem_append_left _ he)
    have hsubBefore := fun e he => hsub e (List.mem_append_left _ he)
    have hpart := hsub _ hlast
    have hnew (step' : TableStep) : (step', part) ∉ entries := not_mem_entries hdistinct
    rw [List.map_append, Machine.run_append] at hruns ⊢
    have hbefore := (mountTable_step (hread _ hlast) hruns).1
    have hreached := run_reached hmnt hreadBefore
      (fun e he => hlisted.absolute _ (hsubBefore e he)) hbefore
    rw [afterAncestors_concat] at hafter
    rw [List.map_append, List.nodup_append] at hdistinct
    have hvisible := ih hreadBefore hsubBefore hdistinct.1 hbefore hafter.1
    have hnotBelow (step' : TableStep) (part' : ReadyPartition) (hmem : (step', part') ∈ entries)
        (hmounts : step'.Mounts settings.system part') :
        ¬ StrictlyBelow part'.mountpoint part.mountpoint := by
      intro hbelow
      obtain ⟨before, after, rfl⟩ := List.append_of_mem hmem
      obtain ⟨step'', hmem', -⟩ := hafter.1 before step' part' after rfl hmounts part hpart hbelow
      exact hnew step'' (List.mem_append_left _ hmem')
    obtain ⟨m, opts, -, -, -, -, htable⟩ :=
      hreached.stepMounts (hread _ hlast) (hlisted.absolute part hpart) hruns
    rintro ⟨step', part'⟩ hentry hmounts hne
    show Visible ((mountTable S devices prepared).step step _).2.table part'
    rw [htable]
    by_cases hroot : part.type = lit "root"
    · obtain ⟨root, -, hslash, htype⟩ := hlisted.root
      obtain rfl := (htype part hpart).mp hroot
      rcases List.mem_append.mp hentry with hentry | hentry
      · refine absurd ?_ (hnotBelow step' part' hentry hmounts)
        rw [hslash]
        exact strictlyBelow_root (hlisted.absolute part' (hsubBefore _ hentry)) hne
      · obtain ⟨rfl, rfl⟩ := Prod.mk.inj (List.mem_singleton.mp hentry)
        exact absurd hslash hne
    · rw [subvolumeMounts_of_ne hroot]
      rcases List.mem_append.mp hentry with hentry | hentry
      · have hstays := hvisible _ hentry hmounts hne
        split_ifs
        · refine hstays.append ?_
          rw [strictlyBelow_append _ (ne_nil_of_absolute (hlisted.absolute part hpart))]
          exact hnotBelow step' part' hentry hmounts
        · rw [List.append_nil]
          exact hstays
      · obtain ⟨rfl, rfl⟩ := Prod.mk.inj (List.mem_singleton.mp hentry)
        rw [if_pos hmounts]
        exact visible_concat ⟨rfl, rfl⟩

end Visible

/-- A partition with the file system ext4, and the string that is read for it. -/
def ext4Entry (name mountpoint type : Str) : TableStep × ReadyPartition :=
  let part := ⟨name, mountpoint, lit "20G", lit "ext4", type⟩
  (⟨.keep part, ⟨true, true, false, 0⟩⟩, part)

/-- The root. -/
def ext4Root : TableStep × ReadyPartition := ext4Entry (lit "/dev/sda2") ['/'] (lit "root")

/-- The partition for `/home`. -/
def ext4Home : TableStep × ReadyPartition :=
  ext4Entry (lit "/dev/sda3") (lit "/home") (lit "additional")

theorem ext4Root_read : partInfo ext4Root.1.readyPart = .ok ext4Root.2 := by decide +kernel

theorem ext4Home_read : partInfo ext4Home.1.readyPart = .ok ext4Home.2 := by decide +kernel

/-- The root and `/home`, in any order. -/
theorem wellListed_ext4 {parts : List ReadyPartition} (h : parts.Perm [ext4Root.2, ext4Home.2]) :
    WellListed parts where
  absolute part hpart := by
    rcases List.mem_pair.mp (h.subset hpart) with rfl | rfl <;> decide +kernel
  distinct := (h.map _).nodup_iff.mpr (by decide +kernel)
  root := by
    refine ⟨ext4Root.2, h.symm.subset List.mem_cons_self, rfl, fun part hpart => ?_⟩
    rcases List.mem_pair.mp (h.subset hpart) with rfl | rfl <;> decide +kernel

end CliInstaller
