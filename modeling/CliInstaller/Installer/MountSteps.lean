import CliInstaller.Installer.MountPartitions
import Mathlib.Tactic.IntervalCases

/-!
# What the steps of `mount_partitions` do

A step appends one partition, for a device the user chose from the list, or it appends nothing and
leaves the list and the mounts as they are.

## Main definitions

* `RootReplies.Takes`, `SwapReplies.Takes`, `AdditionalReplies.Takes`, `EspReplies.Takes`: the
  answers with which a step appends a partition, and its device
* `rootMounted`, `swapMounted`, `additionalMounted`: the states after such a step
* `Idle`: nothing is appended

## Main results

* `rootStep_of_takes`, `swapStep_of_takes`, `additionalStep_of_takes`, `espStep_of_takes`
* `rootStep_idle`, `swapStep_idle`, `additionalStep_idle`, `espStep_idle`
* `rootStep_takes_or_idle`, `swapStep_takes_or_idle`, `additionalStep_takes_or_idle`,
  `espStep_takes_or_idle`: all that a step can do
-/

namespace CliInstaller

open Machines Sorting

/-! ## One mount -/

/-- The directory is made and the mount command succeeds. -/
def MountReplies.Succeeds (replies : MountReplies) : Prop :=
  replies.dirMade = true ∧ replies.mounted = true

instance (replies : MountReplies) : Decidable replies.Succeeds := by
  unfold MountReplies.Succeeds
  infer_instance

/-- The device whose LUKS data is queried. -/
def MountReplies.queryDevice (replies : MountReplies) (partition : Str) : Str :=
  if replies.source.isEmpty then partition else replies.source

section MountPartition

variable {devices : Devices} {replies : MountReplies}
  {partition mountpoint mountDev mountOpts : Str} {m : Mounting}

theorem mountPartition_of_succeeds (h : replies.Succeeds) :
    mountPartition devices replies partition mountpoint mountDev mountOpts m =
      { m with
        mounts := m.mounts ++ [⟨partition, mountpoint ++ mountDev, mountOpts⟩]
        settings := { m.settings with
          crypt := { m.settings.crypt with
            toLuksSettings := devices.queryPartition (replies.queryDevice partition)
              m.settings.crypt.toLuksSettings } } } := by
  rw [mountPartition, if_neg (by simp [h.1, h.2])]
  rfl

theorem mountPartition_of_not_succeeds (h : ¬ replies.Succeeds) :
    mountPartition devices replies partition mountpoint mountDev mountOpts m = m := by
  rw [mountPartition, if_pos]
  simpa [MountReplies.Succeeds, or_iff_not_imp_left] using h

@[simp] theorem mountPartition_schema :
    (mountPartition devices replies partition mountpoint mountDev mountOpts m).schema =
      m.schema := by
  unfold mountPartition
  split_ifs <;> rfl

@[simp] theorem mountPartition_bootCalls :
    (mountPartition devices replies partition mountpoint mountDev mountOpts m).bootCalls =
      m.bootCalls := by
  unfold mountPartition
  split_ifs <;> rfl

@[simp] theorem mountPartition_list :
    (mountPartition devices replies partition mountpoint mountDev mountOpts m).settings.list =
      m.settings.list := by
  unfold mountPartition
  split_ifs <;> rfl

@[simp] theorem mountPartition_mount :
    (mountPartition devices replies partition mountpoint mountDev mountOpts m).settings.mount =
      m.settings.mount := by
  unfold mountPartition
  split_ifs <;> rfl

@[simp] theorem mountPartition_system :
    (mountPartition devices replies partition mountpoint mountDev mountOpts m).settings.system =
      m.settings.system := by
  unfold mountPartition
  split_ifs <;> rfl

end MountPartition

@[simp] theorem confirmMount_mountpoint (isMounted quite : Bool) (list : PartitionSettings) :
    (confirmMount isMounted quite list).2.mountpoint = list.mountpoint := by
  unfold confirmMount
  split_ifs <;> rfl

@[simp] theorem Mounting.append_schema (m : Mounting) (part : Partition) :
    (m.append part).schema = m.schema ++ [part] := rfl

@[simp] theorem Mounting.append_settings (m : Mounting) (part : Partition) :
    (m.append part).settings = m.settings := rfl

@[simp] theorem Mounting.append_bootCalls (m : Mounting) (part : Partition) :
    (m.append part).bootCalls = m.bootCalls := rfl

@[simp] theorem Mounting.called_schema (m : Mounting) (call : BootCall) :
    (m.called call).schema = m.schema := rfl

@[simp] theorem Mounting.called_settings (m : Mounting) (call : BootCall) :
    (m.called call).settings = m.settings := rfl

@[simp] theorem Mounting.called_mounts (m : Mounting) (call : BootCall) :
    (m.called call).mounts = m.mounts := rfl

@[simp] theorem Mounting.called_bootCalls (m : Mounting) (call : BootCall) :
    (m.called call).bootCalls = m.bootCalls ++ [call] := rfl

@[simp] theorem Mounting.append_mounts (m : Mounting) (part : Partition) :
    (m.append part).mounts = m.mounts := rfl

/-! ## Steps that append nothing -/

/-- Nothing is appended or mounted, the list stays as it is, and no boot step is made. -/
structure Idle (m m' : Mounting) : Prop where
  schema : m'.schema = m.schema
  mounts : m'.mounts = m.mounts
  partitions : m'.settings.list.partitions = m.settings.list.partitions
  mountpoint : m'.settings.list.mountpoint = m.settings.list.mountpoint
  crypt : m'.settings.crypt = m.settings.crypt
  bootCalls : m'.bootCalls = m.bootCalls

theorem Idle.refl (m : Mounting) : Idle m m := ⟨rfl, rfl, rfl, rfl, rfl, rfl⟩

/-- A step that appends nothing: it faults, or what it leaves is idle. -/
def StaysIdle (m : Mounting) (result : Except Fault (Phase × Mounting)) : Prop :=
  ∀ phase m', result = .ok (phase, m') →
    Idle m m' ∧ (phase = .additional → 0 < m'.settings.list.numberPartitions)

theorem staysIdle_error (m : Mounting) (fault : Fault) : StaysIdle m (.error fault) := by
  intro phase m' h
  cases h

theorem staysIdle_ok {m m' : Mounting} {phase : Phase} (h : Idle m m')
    (hphase : phase ≠ .additional) : StaysIdle m (.ok (phase, m')) := by
  intro phase' m'' heq
  obtain ⟨rfl, rfl⟩ := Prod.mk.inj (Except.ok.inj heq)
  exact ⟨h, fun hadditional => absurd hadditional hphase⟩

/-- The loop goes on only as long as partitions are counted. -/
theorem loopPhase_eq_additional {m : Mounting} (h : loopPhase m = .additional) :
    0 < m.settings.list.numberPartitions := by
  unfold loopPhase at h
  split_ifs at h with hcount
  exact hcount

/-! ## Root -/

/-- The step takes the device as root: the root is no ZFS one, the menus are answered, the mount
options can be asked for, and formatting, where it is requested, is agreed to and succeeds. -/
def RootReplies.Takes (replies : RootReplies) (settings : MountSettings) (device : Str) : Prop :=
  settings.zfsZpoolNames = [] ∧ replies.rootFilesystem ≠ lit "zfs" ∧
    (∃ n, replies.selected = some n ∧ menuAnswer settings.list.partitions n = .ok device) ∧
      ∃ k < 5, replies.fsSelected = some k ∧
        (k = 0 ∨ settings.fs.fsOpts.isSome ∧ replies.doFormat = true ∧ replies.formatted = true)

/-- The state after the root was selected and mounted. -/
def rootMounted (devices : Devices) (replies : RootReplies) (selection : RootSelection)
    (m : Mounting) : Mounting :=
  let settings := { m.settings with
    list := { m.settings.list with partition := selection.device }
    rootPart := selection.device
    mount := []
    crypt := { m.settings.crypt with toLuksSettings := LuksSettings.reset } }
  let m := mountPartition devices replies.mount selection.device settings.list.mountpoint
    settings.list.mountpoint selection.mountOpts { m with settings }
  m.append (rootPartition replies selection m.settings.crypt)

theorem rootMounted_schema {devices : Devices} {replies : RootReplies} {selection : RootSelection}
    {m : Mounting} : (rootMounted devices replies selection m).schema = m.schema ++
      [rootPartition replies selection (rootMounted devices replies selection m).settings.crypt] := by
  simp only [rootMounted, Mounting.append_schema, mountPartition_schema]
  rfl

/-- The lines of the menu of file systems: the first formats nothing. -/
theorem selectFsAndCmd_of_lt {k : Nat} (hk : k < 5) : ∃ fstype mkfsCommand,
    selectFsAndCmd (some k) = .ok (some (fstype, mkfsCommand)) ∧
      (fstype = lit "skip" ↔ k = 0) ∧ (mkfsCommand = [] ↔ k = 0) := by
  interval_cases k <;> simp [selectFsAndCmd, fsMenuEntries, lit_eq]

theorem selectFsAndCmd_of_le {k : Nat} (hk : 5 ≤ k) :
    selectFsAndCmd (some k) = .error .indexPastEnd := by
  have hnone : fsMenuEntries[k]? = none := List.getElem?_eq_none (by simpa [fsMenuEntries] using hk)
  rw [selectFsAndCmd, hnone]

theorem selectMountOpts_of_isSome {fs : FilesystemSettings} (h : fs.fsOpts.isSome = true)
    (replies : MountOptsReplies) (force : Bool) :
    ∃ mountOpts, selectMountOpts fs replies force = .ok mountOpts := by
  obtain ⟨fsOpts, hfsOpts⟩ := Option.isSome_iff_exists.mp h
  rw [selectMountOpts, hfsOpts]
  dsimp only
  split_ifs <;> exact ⟨_, rfl⟩

theorem selectMountOpts_of_isNone {fs : FilesystemSettings} (h : fs.fsOpts.isSome = false)
    (replies : MountOptsReplies) (force : Bool) :
    selectMountOpts fs replies force = .error .badVariantAccess := by
  rw [Option.isSome_eq_false_iff, Option.isNone_iff_eq_none] at h
  rw [selectMountOpts, h]

section Root

variable {S : Sorter Partition} {devices : Devices} {replies : RootReplies} {m : Mounting}
  {device : Str}

/-- What was moved into the schema is no btrfs partition any more: no subvolumes are handled. -/
theorem applyRootPartitionActions_eq {selection : RootSelection} :
    applyRootPartitionActions S devices replies selection m =
      if !selection.mkfsCommand.isEmpty && (!replies.doFormat || !replies.formatted) then
        .ok (false, m)
      else
        let m := mountPartition devices replies.mount selection.device m.settings.list.mountpoint
          m.settings.list.mountpoint selection.mountOpts { m with settings := { m.settings with
            crypt := { m.settings.crypt with toLuksSettings := LuksSettings.reset } } }
        .ok (true, m.append (rootPartition replies selection m.settings.crypt)) := by
  have hmoved (part : Partition) : part.movedFrom.fstype ≠ lit "btrfs" := by
    simp [Partition.movedFrom, Partition.empty, lit_eq]
  simp only [applyRootPartitionActions, if_neg (hmoved _)]
  rfl

/-- **The root that is taken is mounted and appended.** -/
theorem rootStep_of_takes (h : replies.Takes m.settings device) : ∃ selection : RootSelection,
    selection.device = device ∧
      rootStep S devices replies m = .ok (.swap, rootMounted devices replies selection m) := by
  obtain ⟨hzpools, hzfs, ⟨n, hselected, hanswer⟩, k, hk, hfs, hformat⟩ := h
  obtain ⟨fstype, mkfsCommand, hcmd, hskip, hmkfs⟩ := selectFsAndCmd_of_lt hk
  obtain ⟨mountOpts, hselection⟩ : ∃ mountOpts, selectRootPartitionInfo replies m.settings =
      .ok (some ⟨device, fstype, mkfsCommand, mountOpts⟩, { m.settings with
        list := { m.settings.list with partition := device }, rootPart := device, mount := [] }) := by
    rw [selectRootPartitionInfo, hselected]
    simp only [hanswer, hfs, hcmd, bind, Except.bind, pure, Except.pure]
    by_cases hzero : k = 0
    · exact ⟨_, by rw [if_pos (hskip.mpr hzero)]⟩
    · obtain ⟨mountOpts, hopts⟩ :=
        selectMountOpts_of_isSome (hformat.resolve_left hzero).1 replies.opts false
      exact ⟨mountOpts, by rw [if_neg (mt hskip.mp hzero), hopts]⟩
  refine ⟨⟨device, fstype, mkfsCommand, mountOpts⟩, rfl, ?_⟩
  have hdeclined : ¬ (!mkfsCommand.isEmpty && (!replies.doFormat || !replies.formatted)) = true := by
    rcases hformat with hzero | ⟨-, hdo, hformatted⟩
    · simp [hmkfs.mpr hzero]
    · simp [hdo, hformatted]
  rw [rootStep, mountRootPartition, if_neg (by simp [hzpools]), if_neg hzfs, hselection]
  simp only [applyRootPartitionActions_eq, if_neg hdeclined, bind, Except.bind, pure, Except.pure]
  rfl

/-- Otherwise nothing is appended. -/
theorem rootStep_idle (h : ∀ device, ¬ replies.Takes m.settings device) :
    StaysIdle m (rootStep S devices replies m) := by
  unfold rootStep mountRootPartition
  by_cases hzpools : m.settings.zfsZpoolNames = []
  · rw [if_neg (by simp [hzpools])]
    by_cases hzfs : replies.rootFilesystem = lit "zfs"
    · rw [if_pos hzfs]
      exact staysIdle_ok (.refl m) (by simp)
    rw [if_neg hzfs, selectRootPartitionInfo]
    rcases hselected : replies.selected with _ | n
    · exact staysIdle_ok (.refl m) (by simp)
    dsimp only
    rcases hanswer : menuAnswer m.settings.list.partitions n with fault | device
    · exact staysIdle_error m fault
    rcases hfs : replies.fsSelected with _ | k
    · exact staysIdle_ok ⟨rfl, rfl, rfl, rfl, rfl, rfl⟩ (by simp)
    rcases Nat.lt_or_ge k 5 with hk | hk
    · obtain ⟨fstype, mkfsCommand, hcmd, hskip, hmkfs⟩ := selectFsAndCmd_of_lt hk
      have hno := h device
      simp only [RootReplies.Takes, hselected, hfs, not_and] at hno
      have hformat := hno hzpools hzfs ⟨n, rfl, hanswer⟩
      have hzero : k ≠ 0 := fun hzero => hformat ⟨k, hk, rfl, .inl hzero⟩
      rcases hopts : m.settings.fs.fsOpts.isSome with _ | _
      · have hfault := selectMountOpts_of_isNone hopts replies.opts false
        simp only [hcmd, if_neg (mt hskip.mp hzero), hfault, bind, Except.bind]
        exact staysIdle_error m _
      · obtain ⟨mountOpts, hmountOpts⟩ := selectMountOpts_of_isSome hopts replies.opts false
        have hdeclined : (!mkfsCommand.isEmpty && (!replies.doFormat || !replies.formatted)) =
            true := by
          have hcommand : mkfsCommand ≠ [] := mt hmkfs.mp hzero
          by_contra hagreed
          refine hformat ⟨k, hk, rfl, .inr ⟨hopts, ?_⟩⟩
          simpa [hcommand] using hagreed
        simp only [hcmd, if_neg (mt hskip.mp hzero), hmountOpts, applyRootPartitionActions_eq,
          if_pos hdeclined, bind, Except.bind, pure, Except.pure]
        exact staysIdle_ok ⟨rfl, rfl, rfl, rfl, rfl, rfl⟩ (by simp)
    · simp only [selectFsAndCmd_of_le hk, bind, Except.bind]
      exact staysIdle_error m _
  · rw [if_pos (by simp [hzpools])]
    refine staysIdle_ok (.refl m) ?_
    split_ifs <;> simp

/-- **What the step does.** -/
theorem rootStep_takes_or_idle (S : Sorter Partition) (devices : Devices) (replies : RootReplies)
    (m : Mounting) :
    (∃ selection : RootSelection, replies.Takes m.settings selection.device ∧
        rootStep S devices replies m = .ok (.swap, rootMounted devices replies selection m)) ∨
      (∀ device, ¬ replies.Takes m.settings device) ∧
        StaysIdle m (rootStep S devices replies m) := by
  by_cases htakes : ∃ device, replies.Takes m.settings device
  · obtain ⟨device, htakes⟩ := htakes
    obtain ⟨selection, rfl, hstep⟩ := @rootStep_of_takes S devices _ _ _ htakes
    exact .inl ⟨selection, htakes, hstep⟩
  · have hnone := not_exists.mp htakes
    exact .inr ⟨hnone, rootStep_idle hnone⟩

end Root

/-! ## Swap -/

/-- The step makes the device a swap. -/
def SwapReplies.Takes (replies : SwapReplies) (list : PartitionSettings) (device : Str) : Prop :=
  ∃ n, replies.selected = some n ∧
    menuAnswer (swapHeaders replies.rootFilesystem ++ list.partitions) n = .ok device ∧
      (PartitionStep.swap replies).Uses device

/-- The entry of a swap partition. -/
def swapEntry (replies : SwapReplies) (device : Str) : Partition :=
  { Partition.empty with
    fstype := lit "linuxswap", device, mountOpts := lit "defaults", uuidStr := replies.partUuid }

/-- The state after the device was made a swap. -/
def swapMounted (replies : SwapReplies) (device : Str) (m : Mounting) : Mounting :=
  { m with settings := { m.settings with
      list := { m.settings.list with
        partition := device, swapDevice := device }.removePartition } }.append
    (swapEntry replies device)

section Swap

variable {replies : SwapReplies} {list : PartitionSettings} {m : Mounting} {device : Str}

theorem makeSwap_of_takes (h : replies.Takes list device) : makeSwap replies list =
    .ok (some (swapEntry replies device),
      { list with partition := device, swapDevice := device }.removePartition) := by
  obtain ⟨n, hselected, hanswer, hnone, hfile, hswap, hmade⟩ := h
  have hagreed : ¬ (replies.swapPart ≠ lit "swap" && !replies.doSwap) = true := by
    simpa [or_iff_not_imp_left] using hswap
  rw [makeSwap, hselected]
  simp only [hanswer, bind, Except.bind, if_neg hnone, if_neg hfile, if_neg hagreed, hmade,
    Bool.not_true, Bool.false_eq_true, if_false]
  rfl

theorem makeSwap_mountpoint {swapPartition : Option Partition} {list' : PartitionSettings}
    (h : makeSwap replies list = .ok (swapPartition, list')) :
    list'.mountpoint = list.mountpoint := by
  unfold makeSwap at h
  rcases hselected : replies.selected with _ | n
  · rw [hselected] at h
    obtain ⟨-, rfl⟩ := Prod.mk.inj (Except.ok.inj h)
    rfl
  · rw [hselected] at h
    obtain ⟨answer, -, h⟩ := bind_eq_ok.mp h
    dsimp only at h
    split_ifs at h <;> obtain ⟨-, rfl⟩ := Prod.mk.inj (Except.ok.inj h) <;> rfl

theorem SwapReplies.Takes.unique {device' : Str} (h : replies.Takes list device)
    (h' : replies.Takes list device') : device' = device := by
  obtain ⟨n, hn, hanswer, -⟩ := h
  obtain ⟨n', hn', hanswer', -⟩ := h'
  obtain rfl := Option.some.inj (hn.symm.trans hn')
  exact Except.ok.inj (hanswer'.symm.trans hanswer)

/-- **The partition that is made a swap is appended and leaves the list.** -/
theorem swapStep_of_takes (h : replies.Takes m.settings.list device) :
    swapStep replies m =
      .ok (loopPhase (swapMounted replies device m), swapMounted replies device m) := by
  rw [swapStep, makeSwap_of_takes h]
  rfl

/-- Otherwise nothing is appended. -/
theorem swapStep_idle (h : ∀ device, ¬ replies.Takes m.settings.list device) :
    StaysIdle m (swapStep replies m) := by
  intro phase m' hstep
  obtain ⟨⟨swapPartition, list'⟩, hmake, hrest⟩ := bind_eq_ok.mp hstep
  obtain ⟨rfl, rfl⟩ := Prod.mk.inj (Except.ok.inj hrest)
  refine ⟨?_, loopPhase_eq_additional⟩
  obtain ⟨hswap, hlist⟩ : swapPartition = none ∧ Unchanged m.settings.list list' := by
    rcases hselected : replies.selected with _ | n
    · rw [makeSwap, hselected] at hmake
      obtain ⟨rfl, rfl⟩ := Prod.mk.inj (Except.ok.inj hmake)
      exact ⟨rfl, .refl _⟩
    · rcases hanswer : menuAnswer (swapHeaders replies.rootFilesystem ++ m.settings.list.partitions)
        n with fault | device
      · simp [makeSwap, hselected, hanswer, bind, Except.bind] at hmake
      · obtain ⟨swapPartition', list'', hmake', hcases⟩ := makeSwap_answer hselected hanswer
        rw [if_neg fun huses => h device ⟨n, hselected, hanswer, huses⟩] at hcases
        obtain ⟨rfl, rfl⟩ := Prod.mk.inj (Except.ok.inj (hmake.symm.trans hmake'))
        exact hcases
  refine ⟨?_, rfl, hlist.partitions, makeSwap_mountpoint hmake, rfl, rfl⟩
  simp [hswap]

/-- **What the step does.** -/
theorem swapStep_takes_or_idle (replies : SwapReplies) (m : Mounting) :
    (∃ device, replies.Takes m.settings.list device ∧ swapStep replies m =
        .ok (loopPhase (swapMounted replies device m), swapMounted replies device m)) ∨
      (∀ device, ¬ replies.Takes m.settings.list device) ∧ StaysIdle m (swapStep replies m) := by
  by_cases htakes : ∃ device, replies.Takes m.settings.list device
  · obtain ⟨device, htakes⟩ := htakes
    exact .inl ⟨device, htakes, swapStep_of_takes htakes⟩
  · have hnone := not_exists.mp htakes
    exact .inr ⟨hnone, swapStep_idle hnone⟩

end Swap

/-! ## Additional partitions -/

/-- The step appends the device, at the given mountpoint. -/
def AdditionalReplies.Takes (replies : AdditionalReplies) (settings : MountSettings)
    (device mount : Str) : Prop :=
  (∃ n, replies.selected = some n ∧
      menuAnswer (lit "Done -" :: settings.list.partitions) n = .ok device) ∧
    device ≠ lit "Done" ∧ (∀ k, replies.fsSelected = some k → k < 5) ∧
      replies.mountpoints.find? validMountpoint = some mount

/-- The state after the device was mounted, with the chosen file system and options. -/
def additionalMounted (devices : Devices) (replies : AdditionalReplies) (device mount : Str)
    (fs : FilesystemSettings) (m : Mounting) : Mounting :=
  let settings := { m.settings with
    list := { m.settings.list with partition := device }, fs, mount }
  let m := mountPartition devices replies.current.mount device settings.list.mountpoint mount
    fs.mountOpts { m with settings }
  let m := { m with settings := { m.settings with
    list := (confirmMount replies.current.isMounted false m.settings.list).2 } }
  { m with settings := { m.settings with
    lvmSepBoot := lvmSepBootAt mount replies.isBootLvm m.settings.lvmSepBoot } }.append
      (additionalPartition replies device m.settings)

@[simp] theorem additionalMounted_mount {devices : Devices} {replies : AdditionalReplies}
    {device mount : Str} {fs : FilesystemSettings} {m : Mounting} :
    (additionalMounted devices replies device mount fs m).settings.mount = mount := by
  simp [additionalMounted]

theorem additionalMounted_list {devices : Devices} {replies : AdditionalReplies}
    {device mount : Str} {fs : FilesystemSettings} {m : Mounting} :
    (additionalMounted devices replies device mount fs m).settings.list =
      (confirmMount replies.current.isMounted false
        { m.settings.list with partition := device }).2 := by
  simp [additionalMounted]

theorem additionalMounted_schema {devices : Devices} {replies : AdditionalReplies}
    {device mount : Str} {fs : FilesystemSettings} {m : Mounting} :
    (additionalMounted devices replies device mount fs m).schema =
      m.schema ++ [additionalPartition replies device
        (additionalMounted devices replies device mount fs m).settings] := by
  simp only [additionalMounted, Mounting.append_schema, mountPartition_schema]
  rfl

section Additional

variable {devices : Devices} {replies : AdditionalReplies} {m : Mounting} {device mount : Str}

/-- Once a file system was asked for, the mount options can be. -/
theorem tuiSelectFilesystem_of_lt {fsSelected : Option Nat} (h : ∀ k, fsSelected = some k → k < 5)
    (fs : FilesystemSettings) : ∃ chosen fs',
      tuiSelectFilesystem fsSelected fs = .ok (chosen, fs') ∧ fs'.fsOpts.isSome = true := by
  rcases fsSelected with _ | k
  · exact ⟨_, _, rfl, rfl⟩
  · obtain ⟨fstype, mkfsCommand, hcmd, hskip, -⟩ := selectFsAndCmd_of_lt (h k rfl)
    simp only [tuiSelectFilesystem, hcmd, bind, Except.bind, pure, Except.pure]
    split_ifs
    · exact ⟨_, _, rfl, rfl⟩
    · refine ⟨_, _, rfl, ?_⟩
      rw [selectFilesystem]
      rcases supportedFilesystem fstype with _ | ⟨filesystem, fsOpts⟩ <;> rfl

theorem tuiSelectFilesystem_of_le {k : Nat} (hk : 5 ≤ k) (fs : FilesystemSettings) :
    tuiSelectFilesystem (some k) fs = .error .indexPastEnd := by
  simp only [tuiSelectFilesystem, selectFsAndCmd_of_le hk, bind, Except.bind]

/-- **The additional partition is mounted and appended.** -/
theorem additionalStep_of_takes (h : replies.Takes m.settings device mount) :
    ∃ fs, additionalStep devices replies m =
      .ok (loopPhase (additionalMounted devices replies device mount fs m),
        additionalMounted devices replies device mount fs m) := by
  obtain ⟨⟨n, hselected, hanswer⟩, hdone, hfs, hmount⟩ := h
  obtain ⟨chosen, fs, hfs', hopts⟩ := tuiSelectFilesystem_of_lt hfs m.settings.fs
  obtain ⟨mountOpts, hmountOpts⟩ := selectMountOpts_of_isSome hopts replies.current.opts false
  refine ⟨{ fs with mountOpts }, ?_⟩
  rw [additionalStep, hselected]
  simp only [hanswer, if_neg hdone, hfs', hmount, mountCurrentPartition, hmountOpts, bind,
    Except.bind, pure, Except.pure]
  rfl

/-- Otherwise nothing is appended. -/
theorem additionalStep_idle (h : ∀ device mount, ¬ replies.Takes m.settings device mount) :
    StaysIdle m (additionalStep devices replies m) := by
  unfold additionalStep
  rcases hselected : replies.selected with _ | n
  · exact staysIdle_ok (.refl m) (by simp)
  dsimp only
  rcases hanswer : menuAnswer (lit "Done -" :: m.settings.list.partitions) n with fault | device
  · exact staysIdle_error m fault
  by_cases hdone : device = lit "Done"
  · simp only [bind, Except.bind, if_pos hdone]
    exact staysIdle_ok ⟨rfl, rfl, rfl, rfl, rfl, rfl⟩ (by simp)
  simp only [bind, Except.bind, if_neg hdone]
  by_cases hfs : ∀ k, replies.fsSelected = some k → k < 5
  · obtain ⟨chosen, fs, hfs', -⟩ := tuiSelectFilesystem_of_lt hfs m.settings.fs
    rcases hmount : replies.mountpoints.find? validMountpoint with _ | mount
    · rw [hfs']
      exact staysIdle_ok ⟨rfl, rfl, rfl, rfl, rfl, rfl⟩ (by simp)
    · exact absurd ⟨⟨n, hselected, hanswer⟩, hdone, hfs, hmount⟩ (h device mount)
  · push Not at hfs
    obtain ⟨k, hk, hle⟩ := hfs
    rw [hk, tuiSelectFilesystem_of_le hle]
    exact staysIdle_error m _

/-- **What a round of the loop does.** -/
theorem additionalStep_takes_or_idle (devices : Devices) (replies : AdditionalReplies) (m : Mounting) :
    (∃ device mount fs, replies.Takes m.settings device mount ∧ additionalStep devices replies m =
        .ok (loopPhase (additionalMounted devices replies device mount fs m),
          additionalMounted devices replies device mount fs m)) ∨
      (∀ device mount, ¬ replies.Takes m.settings device mount) ∧
        StaysIdle m (additionalStep devices replies m) := by
  by_cases htakes : ∃ device mount, replies.Takes m.settings device mount
  · obtain ⟨device, mount, htakes⟩ := htakes
    obtain ⟨fs, hstep⟩ := @additionalStep_of_takes devices _ _ _ _ htakes
    exact .inl ⟨device, mount, fs, htakes, hstep⟩
  · have hnone (device mount : Str) : ¬ replies.Takes m.settings device mount :=
      fun h => htakes ⟨device, mount, h⟩
    exact .inr ⟨hnone, additionalStep_idle hnone⟩

end Additional

/-! ## The boot partition -/

/-- The step appends the device as boot partition, at the given mountpoint. -/
def EspReplies.Takes (replies : EspReplies) (settings : MountSettings) (device mount : Str) :
    Prop :=
  settings.system = lit "UEFI" ∧
    (∃ n, replies.selected = some n ∧ menuAnswer settings.list.partitions n = .ok device) ∧
      ∃ k, replies.mountSelected = some k ∧ espMountpoints[k]? = some mount

/-- The entry of a boot partition. -/
def espEntry (replies : EspReplies) (device mount : Str) : Partition :=
  { Partition.empty with
    fstype := replies.partFs, mountpoint := mount, device, mountOpts := lit "defaults",
    uuidStr := replies.partUuid }

section Esp

variable {replies : EspReplies} {m : Mounting} {device mount : Str}

/-- **The boot partition is mounted and appended.** -/
theorem espStep_of_takes (h : replies.Takes m.settings device mount) :
    ∃ m', espStep replies m = .ok (.finished, m') ∧
      m'.schema = m.schema ++ [espEntry replies device mount] ∧
      m'.mounts = m.mounts ++ (if replies.mounted then
        [⟨device, m.settings.list.mountpoint ++ mount, []⟩] else []) ∧
      m'.settings.list.mountpoint = m.settings.list.mountpoint := by
  obtain ⟨hsystem, ⟨n, hselected, hanswer⟩, k, hk, hmount⟩ := h
  simp only [espStep, makeEsp, Mounting.called_settings, hsystem, ne_eq, not_true_eq_false, if_false,
    hselected, hanswer, hk, hmount, bind, Except.bind, pure, Except.pure]
  refine ⟨_, rfl, rfl, ?_, ?_⟩
  · show (if replies.mounted then m.mounts ++ _ else m.mounts) = _
    split_ifs <;> simp
  · exact confirmMount_mountpoint _ _ _

/-- Otherwise nothing is appended. -/
theorem espStep_idle (h : ∀ device mount, ¬ replies.Takes m.settings device mount) :
    ∀ phase m', espStep replies m = .ok (phase, m') → m'.schema = m.schema ∧
      m'.mounts = m.mounts ∧ m'.settings.list.mountpoint = m.settings.list.mountpoint := by
  intro phase m' hstep
  obtain ⟨m₁, hesp, hrest⟩ := bind_eq_ok.mp hstep
  obtain ⟨-, rfl⟩ := Prod.mk.inj (Except.ok.inj hrest)
  unfold makeEsp at hesp
  extract_lets m₀ at hesp
  by_cases hsystem : m₀.settings.system = lit "UEFI"
  swap
  · rw [if_pos hsystem] at hesp
    obtain rfl := Except.ok.inj hesp
    exact ⟨rfl, rfl, rfl⟩
  rw [if_neg (not_not.mpr hsystem)] at hesp
  rcases hselected : replies.selected with _ | n
  · rw [hselected] at hesp
    obtain rfl := Except.ok.inj hesp
    exact ⟨rfl, rfl, rfl⟩
  rw [hselected] at hesp
  obtain ⟨device, hanswer, hesp⟩ := bind_eq_ok.mp hesp
  rcases hk : replies.mountSelected with _ | k
  · rw [hk] at hesp
    obtain rfl := Except.ok.inj hesp
    exact ⟨rfl, rfl, rfl⟩
  rw [hk] at hesp
  rcases hmount : espMountpoints[k]? with _ | mount
  · simp only [hmount] at hesp
    cases hesp
  · exact absurd ⟨hsystem, ⟨n, hselected, hanswer⟩, k, hk, hmount⟩ (h device mount)

/-- **What the last step does.** -/
theorem espStep_takes_or_idle (replies : EspReplies) (m : Mounting) :
    (∃ device mount m', replies.Takes m.settings device mount ∧
        espStep replies m = .ok (.finished, m') ∧
        m'.schema = m.schema ++ [espEntry replies device mount] ∧
        m'.mounts = m.mounts ++ (if replies.mounted then
          [⟨device, m.settings.list.mountpoint ++ mount, []⟩] else []) ∧
        m'.settings.list.mountpoint = m.settings.list.mountpoint) ∨
      (∀ device mount, ¬ replies.Takes m.settings device mount) ∧
        ∀ phase m', espStep replies m = .ok (phase, m') → m'.schema = m.schema ∧
          m'.mounts = m.mounts ∧ m'.settings.list.mountpoint = m.settings.list.mountpoint := by
  by_cases htakes : ∃ device mount, replies.Takes m.settings device mount
  · obtain ⟨device, mount, htakes⟩ := htakes
    obtain ⟨m', hstep⟩ := espStep_of_takes htakes
    exact .inl ⟨device, mount, m', htakes, hstep⟩
  · have hnone (device mount : Str) : ¬ replies.Takes m.settings device mount :=
      fun h => htakes ⟨device, mount, h⟩
    exact .inr ⟨hnone, espStep_idle hnone⟩

end Esp

/-! ## Answers -/

/-- Devices none of which is a crypt mapping. -/
def plainDevices : Devices where
  isCrypt _ := false
  nameOf device := device
  lvmCryptoLuks := []
  cryptLvm2Member := []
  partCryptoLuks := []
  holds _ _ := false
  uuidOf _ := []
  nameOf_ne_nil := by simp

/-- Two partitions are found on a UEFI system. -/
def twoPartitions : MountSettings where
  list := ⟨lit "/mnt", [], [lit "/dev/sda1 20G", lit "/dev/sda2 512M"], 2, []⟩
  fs := ⟨[], [], none, []⟩
  crypt := ⟨.reset, []⟩
  system := lit "UEFI"
  mount := []
  rootPart := []
  uefiMount := []
  uefiPart := []
  lvmSepBoot := 0
  zfsZpoolNames := []

/-- The line is taken as root, and is not formatted. -/
def RootReplies.keep (selected : Nat) (mount : MountReplies) : RootReplies where
  zfsImported := false
  rootFilesystem := []
  selected := some selected
  fsSelected := some 0
  opts := ⟨false, none, false⟩
  doFormat := false
  formatted := false
  mount
  mountFstype := lit "ext4"
  partUuid := []
  subvolumes := []
  doSubvolumes := false
  subvolume := ⟨none, none, [], false, []⟩

/-- The line of a partition that is swap already, or of `None`. -/
def SwapReplies.keep (selected : Nat) : SwapReplies :=
  ⟨lit "ext4", some selected, false, false, lit "swap", false, true, []⟩

/-- The line is taken as an additional partition at the mountpoint, and is listed by `mount`. -/
def AdditionalReplies.keep (selected : Nat) (mount : Str) (replies : MountReplies) :
    AdditionalReplies :=
  ⟨some selected, some 0, [mount], ⟨⟨false, none, false⟩, replies, true⟩, lit "ext4", [], false⟩

end CliInstaller
