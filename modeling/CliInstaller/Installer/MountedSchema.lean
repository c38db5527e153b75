import CliInstaller.Installer.OwnLuks

/-!
# The schema and what is mounted

An entry of the schema with a mountpoint should be mounted there, below the mountpoint of the
target. The root is not: the mountpoint is given to `mount_partition` twice. And a mount that fails
is only logged, or not even looked at.

## Main definitions

* `Mounting.MountedAt`: a device is mounted at a directory
* `Described`: every entry is mounted where it says
* `MountsWhatItTakes`: the condition on a step

## Main results

* `described_step`: one step
* `mountPartitions_described_iff`: a run
-/

namespace CliInstaller

open Machines Sorting

/-- The device was mounted at the directory, with any options. -/
def Mounting.MountedAt (m : Mounting) (device dir : Str) : Prop :=
  ∃ opts, ⟨device, dir, opts⟩ ∈ m.mounts

/-- The directory of an entry in the target: the target itself for `/`. -/
def Mounting.dirOf (m : Mounting) (part : Partition) : Str :=
  m.settings.list.mountpoint ++ if part.mountpoint = ['/'] then [] else part.mountpoint

/-- **Every entry with a mountpoint is mounted there.** -/
def Described (m : Mounting) : Prop :=
  ∀ part ∈ m.schema, part.mountpoint ≠ [] → m.MountedAt part.device (m.dirOf part)

/-- The step mounts what it takes, or it was mounted there before. The mountpoint is empty where a
root is taken. -/
def MountsWhatItTakes (step : MountStep) (s : MountRun) : Prop :=
  match step with
  | .root replies => s.phase = .root → ∀ device, replies.Takes s.settings device →
    replies.mount.Succeeds ∧ s.settings.list.mountpoint = []
  | .swap _ => True
  | .additional replies => s.phase = .additional →
    ∀ device mount, replies.Takes s.settings device mount → replies.current.mount.Succeeds ∨
      s.MountedAt device (s.settings.list.mountpoint ++ mount)
  | .esp replies => s.phase = .esp → ∀ device mount, replies.Takes s.settings device mount →
    replies.mounted = true ∨ s.MountedAt device (s.settings.list.mountpoint ++ mount)

/-! ## What is mounted after a step -/

section Mounts

variable {devices : Devices} {m m' : Mounting} {part : Partition}

theorem mountPartition_mounts {replies : MountReplies}
    {partition mountpoint mountDev mountOpts : Str} :
    (mountPartition devices replies partition mountpoint mountDev mountOpts m).mounts =
      m.mounts ++ if replies.Succeeds then [⟨partition, mountpoint ++ mountDev, mountOpts⟩]
        else [] := by
  by_cases hsucceeds : replies.Succeeds
  · rw [mountPartition_of_succeeds hsucceeds, if_pos hsucceeds]
  · rw [mountPartition_of_not_succeeds hsucceeds, if_neg hsucceeds, List.append_nil]

/-- One mount more, where the condition holds. -/
theorem mountedAt_append {P : Prop} [Decidable P] {mount : Mount} {device dir : Str}
    (hmounts : m'.mounts = m.mounts ++ if P then [mount] else []) :
    m'.MountedAt device dir ↔
      m.MountedAt device dir ∨ P ∧ mount.device = device ∧ mount.dir = dir := by
  unfold Mounting.MountedAt
  rw [hmounts]
  constructor
  · rintro ⟨opts, hmem⟩
    rcases List.mem_append.mp hmem with hmem | hmem
    · exact .inl ⟨opts, hmem⟩
    · split_ifs at hmem with hP
      · obtain rfl := List.mem_singleton.mp hmem
        exact .inr ⟨hP, rfl, rfl⟩
      · exact absurd hmem List.not_mem_nil
  · rintro (⟨opts, hmem⟩ | ⟨hP, rfl, rfl⟩)
    · exact ⟨opts, List.mem_append_left _ hmem⟩
    · refine ⟨mount.opts, List.mem_append_right _ ?_⟩
      rw [if_pos hP]
      exact List.mem_singleton_self _

/-- What was mounted stays so, and the new entry decides. -/
theorem described_append {P : Prop} [Decidable P] {mount : Mount} (h : Described m)
    (hschema : m'.schema = m.schema ++ [part])
    (hmounts : m'.mounts = m.mounts ++ if P then [mount] else [])
    (hmountpoint : m'.settings.list.mountpoint = m.settings.list.mountpoint) :
    Described m' ↔ (part.mountpoint ≠ [] → m.MountedAt part.device (m.dirOf part) ∨
      P ∧ mount.device = part.device ∧ mount.dir = m.dirOf part) := by
  have hdir (p : Partition) : m'.dirOf p = m.dirOf p := by
    rw [Mounting.dirOf, hmountpoint, Mounting.dirOf]
  constructor
  · intro hall hne
    have hpart : part ∈ m'.schema := by
      rw [hschema]
      exact List.mem_append_right _ (List.mem_singleton_self _)
    exact (mountedAt_append hmounts).mp (hdir part ▸ hall part hpart hne)
  · intro hpart p hp hne
    rw [hdir, mountedAt_append hmounts]
    rw [hschema, List.mem_append, List.mem_singleton] at hp
    rcases hp with hp | rfl
    · exact .inl (h p hp hne)
    · exact hpart hne

/-- An entry at a directory of its own: it is mounted now, or was before. -/
theorem described_takes {P : Prop} [Decidable P] {device mount opts : Str} (h : Described m)
    (hschema : m'.schema = m.schema ++ [part])
    (hmounts : m'.mounts =
      m.mounts ++ if P then [⟨device, m.settings.list.mountpoint ++ mount, opts⟩] else [])
    (hmountpoint : m'.settings.list.mountpoint = m.settings.list.mountpoint)
    (hdevice : part.device = device) (hmount : part.mountpoint = mount) (hne : mount ≠ [])
    (hroot : mount ≠ ['/']) :
    Described m' ↔ P ∨ m.MountedAt device (m.settings.list.mountpoint ++ mount) := by
  have hdir : m.dirOf part = m.settings.list.mountpoint ++ mount := by
    rw [Mounting.dirOf, hmount, if_neg hroot]
  rw [described_append h hschema hmounts hmountpoint, hdir, hdevice, hmount]
  constructor
  · intro hmounted
    rcases hmounted hne with hbefore | ⟨hP, -⟩
    · exact .inr hbefore
    · exact .inl hP
  · rintro (hP | hbefore) -
    · exact .inr ⟨hP, rfl, rfl⟩
    · exact .inl hbefore

/-- A mountpoint that is entered is below the root. -/
theorem ne_of_validMountpoint {mount : Str} (h : validMountpoint mount = true) :
    mount ≠ [] ∧ mount ≠ ['/'] := by
  constructor
  · rintro rfl
    simp [validMountpoint] at h
  · rintro rfl
    simp [validMountpoint] at h

theorem ne_of_mem_espMountpoints {mount : Str} (h : mount ∈ espMountpoints) :
    mount ≠ [] ∧ mount ≠ ['/'] := by
  simp only [espMountpoints, List.mem_cons, List.not_mem_nil, or_false] at h
  rcases h with rfl | rfl
  · decide +kernel
  · decide +kernel

/-- Nothing is appended and nothing is unmounted. -/
theorem Described.of_eq (h : Described m) (hschema : m'.schema = m.schema)
    (hmounts : m'.mounts = m.mounts)
    (hmountpoint : m'.settings.list.mountpoint = m.settings.list.mountpoint) : Described m' := by
  intro part hpart hne
  obtain ⟨opts, hmem⟩ := h part (hschema ▸ hpart) hne
  refine ⟨opts, ?_⟩
  rw [Mounting.dirOf, hmountpoint, hmounts]
  exact hmem

end Mounts

section Taken

variable {devices : Devices} {m : Mounting}

theorem rootMounted_mounts {replies : RootReplies} {selection : RootSelection} :
    (rootMounted devices replies selection m).mounts =
      m.mounts ++ if replies.mount.Succeeds then
        [⟨selection.device, m.settings.list.mountpoint ++ m.settings.list.mountpoint,
          selection.mountOpts⟩] else [] := by
  simp only [rootMounted, Mounting.append_mounts, mountPartition_mounts]

theorem rootMounted_mountpoint {replies : RootReplies} {selection : RootSelection} :
    (rootMounted devices replies selection m).settings.list.mountpoint =
      m.settings.list.mountpoint := by
  simp [rootMounted]

theorem additionalMounted_mounts {replies : AdditionalReplies} {device mount : Str}
    {fs : FilesystemSettings} :
    (additionalMounted devices replies device mount fs m).mounts =
      m.mounts ++ if replies.current.mount.Succeeds then
        [⟨device, m.settings.list.mountpoint ++ mount, fs.mountOpts⟩] else [] := by
  simp only [additionalMounted, Mounting.append_mounts, mountPartition_mounts]

theorem additionalMounted_mountpoint {replies : AdditionalReplies} {device mount : Str}
    {fs : FilesystemSettings} :
    (additionalMounted devices replies device mount fs m).settings.list.mountpoint =
      m.settings.list.mountpoint := by
  rw [additionalMounted_list, confirmMount_mountpoint]

end Taken

/-! ## One step -/

/-- Every entry is mounted where it says, and nothing is before the root step. -/
structure DescribedRun (s : MountRun) : Prop where
  described : Described s.toMounting
  unmounted : s.phase = .root → s.mounts = []

section Step

variable {S : Sorter Partition} {devices : Devices} {s : MountRun}

/-- A step that appends nothing, or a fault. -/
theorem described_after_of_eq {result : Except Fault (Phase × Mounting)}
    (h : Described s.toMounting)
    (hresult : ∀ phase m', result = .ok (phase, m') → m'.schema = s.schema ∧
      m'.mounts = s.mounts ∧ m'.settings.list.mountpoint = s.settings.list.mountpoint) :
    Described (s.after result).2.toMounting := by
  rcases result with fault | ⟨phase, m'⟩
  · exact h
  · obtain ⟨hschema, hmounts, hmountpoint⟩ := hresult phase m' rfl
    exact h.of_eq hschema hmounts hmountpoint

theorem StaysIdle.described {result : Except Fault (Phase × Mounting)}
    (h : Described s.toMounting) (hidle : StaysIdle s.toMounting result) :
    Described (s.after result).2.toMounting := by
  refine described_after_of_eq h fun phase m' hresult => ?_
  obtain ⟨hidle, -⟩ := hidle phase m' hresult
  exact ⟨hidle.schema, hidle.mounts, hidle.mountpoint⟩

/-- The root is not selected twice. -/
theorem apply_ne_root {step : MountStep} {m m' : Mounting} {phase : Phase}
    (h : step.apply S devices m = .ok (phase, m')) : phase ≠ .root := by
  have hloop (m : Mounting) : loopPhase m ≠ .root := by
    unfold loopPhase
    split_ifs <;> simp
  cases step with
  | root replies =>
    obtain ⟨⟨mounted, m₁⟩, -, hrest⟩ := bind_eq_ok.mp h
    rw [← (Prod.mk.inj (Except.ok.inj hrest)).1]
    split_ifs <;> simp
  | swap replies =>
    obtain ⟨⟨swapPartition, list⟩, -, hrest⟩ := bind_eq_ok.mp h
    rw [← (Prod.mk.inj (Except.ok.inj hrest)).1]
    exact hloop _
  | additional replies =>
    rw [MountStep.apply, additionalStep] at h
    rcases hselected : replies.selected with _ | n
    · rw [hselected] at h
      rw [← (Prod.mk.inj (Except.ok.inj h)).1]
      simp
    rw [hselected] at h
    obtain ⟨device, -, hrest⟩ := bind_eq_ok.mp h
    dsimp only at hrest
    split_ifs at hrest with hdone
    · rw [← (Prod.mk.inj (Except.ok.inj hrest)).1]
      simp
    obtain ⟨⟨chosen, fs⟩, -, hrest⟩ := bind_eq_ok.mp hrest
    rcases hmount : replies.mountpoints.find? validMountpoint with _ | mount
    · simp only [hmount] at hrest
      rw [← (Prod.mk.inj (Except.ok.inj hrest)).1]
      simp
    · simp only [hmount] at hrest
      obtain ⟨m₁, -, hrest⟩ := bind_eq_ok.mp hrest
      rw [← (Prod.mk.inj (Except.ok.inj hrest)).1]
      exact hloop _
  | esp replies =>
    obtain ⟨m₁, -, hrest⟩ := bind_eq_ok.mp h
    rw [← (Prod.mk.inj (Except.ok.inj hrest)).1]
    simp

/-- Only the start is in the root step. -/
theorem unmounted_step (h : DescribedRun s) {step : MountStep}
    (hphase : ((mountPartitions S devices).step step s).2.phase = .root) :
    ((mountPartitions S devices).step step s).2.mounts = [] := by
  by_cases hturn : step.phase = s.phase
  · rw [mountPartitions_step hturn] at hphase
    rcases hresult : step.apply S devices s.toMounting with fault | ⟨phase, m'⟩
    · rw [hresult] at hphase
      cases hphase
    · rw [hresult] at hphase
      exact absurd hphase (apply_ne_root hresult)
  · rw [mountPartitions_step_of_ne hturn] at hphase ⊢
    exact h.unmounted hphase

/-- **One step.** -/
theorem described_step (h : DescribedRun s) {step : MountStep} :
    Described ((mountPartitions S devices).step step s).2.toMounting ↔
      MountsWhatItTakes step s := by
  by_cases hphase : step.phase = s.phase
  swap
  · rw [mountPartitions_step_of_ne hphase]
    refine iff_of_true h.described ?_
    cases step with
    | swap replies => trivial
    | root replies => exact fun heq => absurd heq.symm hphase
    | additional replies => exact fun heq => absurd heq.symm hphase
    | esp replies => exact fun heq => absurd heq.symm hphase
  rw [mountPartitions_step hphase]
  cases step with
  | root replies =>
    rcases rootStep_takes_or_idle S devices replies s.toMounting with
      ⟨selection, htakes, hstep⟩ | ⟨hnone, hidle⟩
    · rw [MountStep.apply, hstep]
      refine Iff.trans (described_append h.described rootMounted_schema rootMounted_mounts
        rootMounted_mountpoint) ?_
      have hnone (device dir : Str) : ¬ s.MountedAt device dir := by
        rintro ⟨opts, hmem⟩
        rw [h.unmounted hphase.symm] at hmem
        exact List.not_mem_nil hmem
      -- The directory of the root is the mountpoint, and it was mounted at the mountpoint twice.
      have hdir (replies : RootReplies) (selection : RootSelection) (crypt : CryptSettings) :
          s.dirOf (rootPartition replies selection crypt) = s.settings.list.mountpoint := by
        rw [Mounting.dirOf, rootPartition, if_pos rfl, List.append_nil]
      rw [hdir]
      constructor
      · intro hmounted _ device' htakes'
        obtain ⟨hsucceeds, -, htwice⟩ :=
          (hmounted (by simp [rootPartition])).resolve_left (hnone _ _)
        exact ⟨hsucceeds, List.append_right_eq_self.mp htwice⟩
      · intro hmounts _
        obtain ⟨hsucceeds, hmountpoint⟩ := hmounts hphase.symm _ htakes
        refine .inr ⟨hsucceeds, rfl, ?_⟩
        rw [hmountpoint]
        rfl
    · exact iff_of_true (StaysIdle.described h.described hidle)
        fun _ device htakes => absurd htakes (hnone device)
  | swap replies =>
    refine iff_of_true ?_ trivial
    rcases swapStep_takes_or_idle replies s.toMounting with
      ⟨device, htakes, hstep⟩ | ⟨-, hidle⟩
    · rw [MountStep.apply, hstep]
      have hmounts : (swapMounted replies device s.toMounting).mounts =
          s.mounts ++ if False then [⟨device, [], []⟩] else [] := by
        rw [if_neg not_false, List.append_nil]
        rfl
      exact (described_append h.described rfl hmounts rfl).mpr fun hne => absurd rfl hne
    · exact StaysIdle.described h.described hidle
  | additional replies =>
    rcases additionalStep_takes_or_idle devices replies s.toMounting with
      ⟨device, mount, fs, htakes, hstep⟩ | ⟨hnone, hidle⟩
    · rw [MountStep.apply, hstep]
      obtain ⟨hne, hroot⟩ := ne_of_validMountpoint (List.find?_some htakes.2.2.2)
      refine Iff.trans (described_takes h.described additionalMounted_schema
        additionalMounted_mounts additionalMounted_mountpoint rfl additionalMounted_mount hne
        hroot) ?_
      constructor
      · intro hmounted _ device' mount' htakes'
        obtain rfl := menuAnswer_unique htakes.1 htakes'.1
        obtain rfl := Option.some.inj (htakes.2.2.2.symm.trans htakes'.2.2.2)
        exact hmounted
      · intro hmounts
        exact hmounts hphase.symm _ _ htakes
    · exact iff_of_true (StaysIdle.described h.described hidle)
        fun _ device mount htakes => absurd htakes (hnone device mount)
  | esp replies =>
    rcases espStep_takes_or_idle replies s.toMounting with
      ⟨device, mount, m', htakes, hstep, hschema, hmounts, hmountpoint⟩ | ⟨hnone, hidle⟩
    · rw [MountStep.apply, hstep]
      obtain ⟨k, hk, hmount⟩ := htakes.2.2
      have hmem : mount ∈ espMountpoints := List.mem_of_getElem? hmount
      have hne : mount ≠ [] ∧ mount ≠ ['/'] := ne_of_mem_espMountpoints hmem
      refine Iff.trans (described_takes h.described hschema hmounts hmountpoint rfl rfl hne.1
        hne.2) ?_
      constructor
      · intro hmounted _ device' mount' htakes'
        obtain ⟨k', hk', hmount'⟩ := htakes'.2.2
        obtain rfl := menuAnswer_unique htakes.2.1 htakes'.2.1
        obtain rfl := Option.some.inj (hk.symm.trans hk')
        obtain rfl := Option.some.inj (hmount.symm.trans hmount')
        exact hmounted
      · intro hmounts
        exact hmounts hphase.symm _ _ htakes
    · exact iff_of_true (described_after_of_eq h.described hidle)
        fun _ device mount htakes => absurd htakes (hnone device mount)

end Step

/-! ## Runs -/

/-- **In every run each entry is mounted where it says**, iff each step mounts what it takes; no
partition is taken as root, unless the mountpoint is empty. -/
theorem mountPartitions_described_iff (S : Sorter Partition) (devices : Devices)
    (settings : MountSettings) (steps : List MountStep) :
    (mountPartitions S devices).Throughout (fun s => Described s.toMounting) steps
        (.start settings) ↔
      (mountPartitions S devices).Along MountsWhatItTakes steps (.start settings) := by
  have hstart : DescribedRun (.start settings) := by
    refine ⟨?_, fun _ => rfl⟩
    intro part hpart
    exact absurd hpart List.not_mem_nil
  refine Machine.Throughout.iff_along (I := DescribedRun) ?_ ?_ ?_ (Machine.along_true steps _)
    hstart
  · intro s h
    exact h.described
  · intro step s h _ hmounts
    exact ⟨(described_step h).mpr hmounts, unmounted_step h⟩
  · intro step s h _ hdescribed
    exact (described_step h).mp hdescribed

/-- The root is mounted, but not at the mountpoint. -/
theorem mountPartitions_root_twice :
    ((mountPartitions .stable plainDevices).run [.root (.keep 0 ⟨true, true, []⟩)]
        (.start twoPartitions)).mounts =
        [⟨lit "/dev/sda1", lit "/mnt/mnt", lit "defaults"⟩] ∧
      ¬ (mountPartitions .stable plainDevices).Throughout (fun s => Described s.toMounting)
        [.root (.keep 0 ⟨true, true, []⟩)] (.start twoPartitions) := by
  have hmounts : ((mountPartitions .stable plainDevices).run [.root (.keep 0 ⟨true, true, []⟩)]
      (.start twoPartitions)).mounts = [⟨lit "/dev/sda1", lit "/mnt/mnt", lit "defaults"⟩] := by
    decide +kernel
  refine ⟨hmounts, fun hdescribed => ?_⟩
  have hroot : ((mountPartitions .stable plainDevices).run [.root (.keep 0 ⟨true, true, []⟩)]
      (.start twoPartitions)).schema.map Partition.mountpoint = [['/']] := by
    decide +kernel
  obtain ⟨part, hpart, hmountpoint⟩ := List.mem_map.mp (hroot ▸ List.mem_singleton_self ['/'])
  obtain ⟨opts, hmem⟩ := hdescribed.run part hpart (by simp [hmountpoint])
  rw [hmounts, List.mem_singleton] at hmem
  have hdir : Mounting.dirOf _ part = lit "/mnt/mnt" := congrArg Mount.dir hmem
  rw [Mounting.dirOf, hmountpoint] at hdir
  exact absurd hdir (by decide +kernel)

end CliInstaller
