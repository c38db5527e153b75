import CliInstaller.Installer.TakenPartitions
import CliInstaller.Installer.PartitionsPrepared

/-!
# The LUKS data of the schema

The LUKS fields of an entry are read from variables that outlive the partition: `query_partition`
only writes them for a crypt mapping, and only the root step of `mount_partitions` resets them. So
a plain partition gets the data of the crypt mapping mounted before it; the swap and the boot
partition get none. The UUID is that of the first partition with LUKS data among whose names the name of
the mapping occurs, which need not be the one that the mapping was opened from.

## Main definitions

* `MappedDevices.Describes`: the variables are those of a device
* `MappedDevices.Found`: the search for a crypt mapping finds its data
* `MountReplies.Settles`: after a mount the variables are those of the device
* `KeepsOwnLuks`, `PreparedStep.KeepsOwnLuks`: the conditions on a step

## Main results

* `describes_mountPartition`: one mount
* `rootMounted_ownLuks`, `additionalMounted_ownLuks`, `mountedPart_ownLuks`: the entries
* `ownLuks_iff`: the runs of both functions
-/

namespace CliInstaller

open Machines Sorting

theorem nonEmpty_of_ne_nil {text : Str} (h : text ≠ []) : nonEmpty text = some text := by
  cases text with
  | nil => exact absurd rfl h
  | cons c text => rfl

/-! ## The variables -/

/-- The variables, read as the fields of an entry, are those of the device. -/
structure MappedDevices.Describes (devices : MappedDevices) (luks : LuksSettings) (device : Str) :
    Prop where
  name : nonEmpty luks.luksName = devices.mapperNameOf device
  uuid : nonEmpty luks.luksUuid = devices.luksUuidOf device

/-- The search for a crypt mapping finds its data: the path of the device has its name, and the first
partition with LUKS data that holds the name has the UUID. Where there is none, or the name is held by LVM,
the UUID is the one that was there before. -/
structure MappedDevices.Found (devices : MappedDevices) (luks : LuksSettings) (device : Str) : Prop where
  name : devices.mapperNameOf device = some (devices.nameOf device)
  uuid : devices.luksUuidOf device =
    match devices.luksPart (devices.nameOf device) with
    | some cryptpart => nonEmpty (devices.uuidOf cryptpart)
    | none => nonEmpty luks.luksUuid

/-- The device `findmnt` reports has the crypt mapping of the device that was mounted, or neither
has one. -/
def MountReplies.Finds (replies : MountReplies) (devices : MappedDevices) (device : Str) : Prop :=
  devices.queriedName (replies.queryDevice device) = devices.queriedName device

/-- The variables are those of the device after it was mounted: where it is found to be a crypt mapping
they are written, and else they are those of the device before. -/
def MountReplies.Settles (replies : MountReplies) (devices : MappedDevices) (luks : LuksSettings)
    (device : Str) : Prop :=
  if devices.isCrypt device = true ∧ replies.Succeeds then devices.Found luks device
  else devices.Describes luks device

section Variables

variable {devices : MappedDevices} {replies : MountReplies} {device : Str}

theorem queriedName_of_crypt (h : devices.isCrypt device = true) :
    devices.queriedName device = some (devices.nameOf device) :=
  if_pos h

theorem queriedName_of_not_crypt (h : ¬ devices.isCrypt device = true) :
    devices.queriedName device = none :=
  if_neg h

/-- What is queried depends on the name alone. -/
theorem queryPartition_congr {device' : Str}
    (h : devices.queriedName device' = devices.queriedName device) (luks : LuksSettings) :
    devices.queryPartition device' luks = devices.queryPartition device luks := by
  by_cases hcrypt : devices.isCrypt device
  · rw [queriedName_of_crypt hcrypt] at h
    have hcrypt' : devices.isCrypt device' := by
      by_contra hno
      rw [queriedName_of_not_crypt hno] at h
      cases h
    rw [queriedName_of_crypt hcrypt'] at h
    rw [Devices.queryPartition_of_crypt hcrypt, Devices.queryPartition_of_crypt hcrypt',
      Option.some.inj h]
  · rw [queriedName_of_not_crypt hcrypt] at h
    have hcrypt' : ¬ devices.isCrypt device' := by
      intro hyes
      rw [queriedName_of_crypt hyes] at h
      cases h
    rw [Devices.queryPartition_of_not_crypt (by simpa using hcrypt'),
      Devices.queryPartition_of_not_crypt (by simpa using hcrypt)]

/-- The function leaves the data of a crypt mapping iff the search finds it. -/
theorem describes_queryPartition (h : devices.isCrypt device = true) (luks : LuksSettings) :
    devices.Describes (devices.queryPartition device luks) device ↔ devices.Found luks device := by
  have hname : nonEmpty (devices.queryPartition device luks).luksName =
      some (devices.nameOf device) := by
    rw [Devices.queryPartition_luksName, queriedName_of_crypt h, Option.getD_some]
    exact nonEmpty_of_ne_nil (devices.nameOf_ne_nil device h)
  have huuid : nonEmpty (devices.queryPartition device luks).luksUuid =
      match devices.luksPart (devices.nameOf device) with
      | some cryptpart => nonEmpty (devices.uuidOf cryptpart)
      | none => nonEmpty luks.luksUuid := by
    rw [Devices.queryPartition_luksUuid, if_pos h]
    rcases devices.luksPart (devices.nameOf device) with _ | cryptpart
    · rfl
    · rfl
  constructor
  · intro hdesc
    exact ⟨hdesc.name.symm.trans hname, hdesc.uuid.symm.trans huuid⟩
  · intro hfound
    exact ⟨hname.trans hfound.name.symm, huuid.trans hfound.uuid.symm⟩

/-- **After a mount the variables are those of the device** iff they are settled. -/
theorem describes_mountPartition {mountpoint mountDev mountOpts : Str} {m : Mounting}
    (hfinds : replies.Finds devices device) :
    devices.Describes
        (mountPartition devices.toDevices replies device mountpoint mountDev mountOpts
          m).settings.crypt.toLuksSettings device ↔
      replies.Settles devices m.settings.crypt.toLuksSettings device := by
  unfold MountReplies.Settles
  by_cases hsucceeds : replies.Succeeds
  · rw [mountPartition_of_succeeds hsucceeds]
    show devices.Describes (devices.queryPartition (replies.queryDevice device) _) device ↔ _
    rw [queryPartition_congr hfinds]
    by_cases hcrypt : devices.isCrypt device
    · rw [if_pos ⟨hcrypt, hsucceeds⟩, describes_queryPartition hcrypt]
    · rw [if_neg fun h => hcrypt h.1,
        Devices.queryPartition_of_not_crypt (by simpa using hcrypt)]
  · rw [mountPartition_of_not_succeeds hsucceeds, if_neg fun h => hsucceeds h.2]

end Variables

/-! ## The entries -/

section Entries

variable {devices : MappedDevices}

/-- An entry without LUKS fields is right for a device that is no crypt mapping. -/
theorem ownLuks_of_none {part : Partition} (hname : part.luksMapperName = none)
    (huuid : part.luksUuid = none) :
    devices.OwnLuks part ↔ devices.mapping part.device = none := by
  constructor
  · intro hown
    exact Option.map_eq_none_iff.mp (hown.mapperName.symm.trans hname)
  · intro hplain
    refine ⟨?_, ?_⟩
    · rw [hname, MappedDevices.mapperNameOf, hplain, Option.map_none]
    · rw [huuid, MappedDevices.luksUuidOf, hplain, Option.map_none]

/-- Where `LUKS` stays unset after a mount, so do the other variables that were reset. -/
theorem mountPartition_isLuks {devices : Devices} {replies : MountReplies}
    {partition mountpoint mountDev mountOpts : Str} {m : Mounting}
    (hreset : m.settings.crypt.toLuksSettings = .reset)
    (hluks : (mountPartition devices replies partition mountpoint mountDev mountOpts
      m).settings.crypt.isLuks = 0) :
    (mountPartition devices replies partition mountpoint mountDev mountOpts
      m).settings.crypt.toLuksSettings = .reset := by
  by_cases hsucceeds : replies.Succeeds
  · rw [mountPartition_of_succeeds hsucceeds] at hluks ⊢
    dsimp only at hluks ⊢
    rw [hreset] at hluks ⊢
    by_cases hcrypt : devices.isCrypt (replies.queryDevice partition)
    · rw [Devices.queryPartition_of_crypt hcrypt] at hluks
      cases hluks
    · exact Devices.queryPartition_of_not_crypt (by simpa using hcrypt) _
  · rw [mountPartition_of_not_succeeds hsucceeds]
    exact hreset

/-- **The root**: the variables are reset before it is mounted. -/
theorem rootMounted_ownLuks {replies : RootReplies} {selection : RootSelection} {m : Mounting}
    (hfinds : replies.mount.Finds devices selection.device) :
    devices.OwnLuks (rootPartition replies selection
        (rootMounted devices.toDevices replies selection m).settings.crypt) ↔
      replies.mount.Settles devices .reset selection.device := by
  have hdescribes := @describes_mountPartition devices replies.mount selection.device
    m.settings.list.mountpoint m.settings.list.mountpoint selection.mountOpts
    { m with settings := { m.settings with
      list := { m.settings.list with partition := selection.device }
      rootPart := selection.device
      mount := []
      crypt := { m.settings.crypt with toLuksSettings := LuksSettings.reset } } } hfinds
  rw [← hdescribes]
  have hread (crypt : CryptSettings)
      (hcrypt : crypt.isLuks = 0 → crypt.toLuksSettings = .reset) :
      (rootPartition replies selection crypt).luksMapperName = nonEmpty crypt.luksName ∧
        (rootPartition replies selection crypt).luksUuid = nonEmpty crypt.luksUuid := by
    by_cases hluks : crypt.isLuks = 0
    · simp [rootPartition, hcrypt hluks, LuksSettings.reset, nonEmpty]
    · simp [rootPartition, hluks]
  obtain ⟨hname, huuid⟩ := hread (rootMounted devices.toDevices replies selection m).settings.crypt
    fun hluks => mountPartition_isLuks rfl hluks
  constructor
  · intro hown
    exact ⟨hname ▸ hown.mapperName, huuid ▸ hown.uuid⟩
  · intro hown
    exact ⟨hname.trans hown.name, huuid.trans hown.uuid⟩

/-- **An additional partition**: the variables are as the last mount left them. -/
theorem additionalMounted_ownLuks {replies : AdditionalReplies} {device mount : Str}
    {fs : FilesystemSettings} {m : Mounting}
    (hfinds : replies.current.mount.Finds devices device) :
    devices.OwnLuks (additionalPartition replies device
        (additionalMounted devices.toDevices replies device mount fs m).settings) ↔
      replies.current.mount.Settles devices m.settings.crypt.toLuksSettings device := by
  have hdescribes := @describes_mountPartition devices replies.current.mount device
    m.settings.list.mountpoint mount fs.mountOpts
    { m with settings := { m.settings with
      list := { m.settings.list with partition := device }, fs, mount } } hfinds
  rw [← hdescribes]
  exact ⟨fun hown => ⟨hown.mapperName, hown.uuid⟩, fun hown => ⟨hown.name, hown.uuid⟩⟩

end Entries

/-! ## The steps of `mount_partitions` -/

/-- Every entry has the LUKS fields of its own device. -/
def AllOwnLuks (devices : MappedDevices) (m : Mounting) : Prop :=
  ∀ part ∈ m.schema, devices.OwnLuks part

/-- The step leaves no LUKS data to another partition. For the root the variables are settled after they
are reset, for an additional partition as they are; a crypt mapping is no swap or boot partition. -/
def KeepsOwnLuks (devices : MappedDevices) (step : MountStep) (s : MountRun) : Prop :=
  match step with
  | .root replies => s.phase = .root → ∀ device, replies.Takes s.settings device →
    replies.mount.Settles devices .reset device
  | .swap replies => s.phase = .swap → ∀ device, replies.Takes s.settings.list device →
    devices.mapping device = none
  | .additional replies => s.phase = .additional →
    ∀ device mount, replies.Takes s.settings device mount →
      replies.current.mount.Settles devices s.settings.crypt.toLuksSettings device
  | .esp replies => s.phase = .esp → ∀ device mount, replies.Takes s.settings device mount →
    devices.mapping device = none

/-- `findmnt` reports the device that was mounted. -/
def FindsMounted (devices : MappedDevices) (step : MountStep) (s : MountRun) : Prop :=
  match step with
  | .root replies => ∀ device, replies.Takes s.settings device → replies.mount.Finds devices device
  | .additional replies => ∀ device mount, replies.Takes s.settings device mount →
    replies.current.mount.Finds devices device
  | .swap _ => True
  | .esp _ => True

section Step

variable {S : Sorter Partition} {devices : MappedDevices} {s : MountRun}

theorem allOwnLuks_append {m m' : Mounting} {part : Partition} (h : AllOwnLuks devices m)
    (hschema : m'.schema = m.schema ++ [part]) :
    AllOwnLuks devices m' ↔ devices.OwnLuks part := by
  unfold AllOwnLuks
  rw [hschema]
  constructor
  · intro hall
    exact hall part (List.mem_append_right _ (List.mem_singleton_self _))
  · intro hpart p hp
    rcases List.mem_append.mp hp with hp | hp
    · exact h p hp
    · rw [List.mem_singleton.mp hp]
      exact hpart

/-- A step that appends nothing leaves all entries right. -/
theorem allOwnLuks_of_schema {result : Except Fault (Phase × Mounting)}
    (h : AllOwnLuks devices s.toMounting)
    (hresult : ∀ phase m', result = .ok (phase, m') → m'.schema = s.schema) :
    AllOwnLuks devices (s.after result).2.toMounting := by
  rcases result with fault | ⟨phase, m'⟩
  · exact h
  · show ∀ part ∈ m'.schema, devices.OwnLuks part
    rw [hresult phase m' rfl]
    exact h

theorem StaysIdle.schema {m : Mounting} {result : Except Fault (Phase × Mounting)}
    (h : StaysIdle m result) : ∀ phase m', result = .ok (phase, m') → m'.schema = m.schema :=
  fun phase m' hresult => (h phase m' hresult).1.schema

/-- What is chosen is one line of one menu. -/
theorem menuAnswer_unique {entries : List Str} {selected : Option Nat} {device device' : Str}
    (h : ∃ n, selected = some n ∧ menuAnswer entries n = .ok device)
    (h' : ∃ n, selected = some n ∧ menuAnswer entries n = .ok device') : device' = device := by
  obtain ⟨n, hn, hanswer⟩ := h
  obtain ⟨n', hn', hanswer'⟩ := h'
  obtain rfl := Option.some.inj (hn.symm.trans hn')
  exact Except.ok.inj (hanswer'.symm.trans hanswer)

/-- A step that takes a device appends the entry, whose fields are right iff the step meets its
condition. -/
theorem allOwnLuks_takes {m m' : Mounting} {phase : Phase} {part : Partition} {P : Prop}
    (h : AllOwnLuks devices m) (hschema : m'.schema = m.schema ++ [part])
    (hpart : devices.OwnLuks part ↔ P) :
    AllOwnLuks devices (s.after (.ok (phase, m'))).2.toMounting ↔ P :=
  (allOwnLuks_append h hschema).trans hpart

theorem allOwnLuks_rootStep (h : AllOwnLuks devices s.toMounting) {replies : RootReplies}
    (hphase : s.phase = .root) (hfinds : FindsMounted devices (.root replies) s) :
    AllOwnLuks devices (s.after (rootStep S devices.toDevices replies s.toMounting)).2.toMounting ↔
      KeepsOwnLuks devices (.root replies) s := by
  rcases rootStep_takes_or_idle S devices.toDevices replies s.toMounting with
    ⟨selection, htakes, hstep⟩ | ⟨hnone, hidle⟩
  · rw [hstep, allOwnLuks_takes h rootMounted_schema (rootMounted_ownLuks (hfinds _ htakes))]
    constructor
    · intro hmount _ device' htakes'
      rwa [menuAnswer_unique htakes.2.2.1 htakes'.2.2.1]
    · intro hkeeps
      exact hkeeps hphase _ htakes
  · refine iff_of_true ?_ fun _ device htakes => absurd htakes (hnone device)
    exact allOwnLuks_of_schema h hidle.schema

theorem allOwnLuks_swapStep (h : AllOwnLuks devices s.toMounting) {replies : SwapReplies}
    (hphase : s.phase = .swap) :
    AllOwnLuks devices (s.after (swapStep replies s.toMounting)).2.toMounting ↔
      KeepsOwnLuks devices (.swap replies) s := by
  rcases swapStep_takes_or_idle replies s.toMounting with ⟨device, htakes, hstep⟩ | ⟨hnone, hidle⟩
  · have hentry : devices.OwnLuks (swapEntry replies device) ↔ devices.mapping device = none :=
      ownLuks_of_none rfl rfl
    have hschema : (swapMounted replies device s.toMounting).schema =
        s.schema ++ [swapEntry replies device] := rfl
    rw [hstep, allOwnLuks_takes h hschema hentry]
    constructor
    · intro hplain _ device' htakes'
      rwa [htakes.unique htakes']
    · intro hkeeps
      exact hkeeps hphase _ htakes
  · refine iff_of_true ?_ fun _ device htakes => absurd htakes (hnone device)
    exact allOwnLuks_of_schema h hidle.schema

theorem allOwnLuks_additionalStep (h : AllOwnLuks devices s.toMounting) {replies : AdditionalReplies}
    (hphase : s.phase = .additional) (hfinds : FindsMounted devices (.additional replies) s) :
    AllOwnLuks devices (s.after (additionalStep devices.toDevices replies s.toMounting)).2.toMounting ↔
      KeepsOwnLuks devices (.additional replies) s := by
  rcases additionalStep_takes_or_idle devices.toDevices replies s.toMounting with
    ⟨device, mount, fs, htakes, hstep⟩ | ⟨hnone, hidle⟩
  · rw [hstep, allOwnLuks_takes h additionalMounted_schema
      (additionalMounted_ownLuks (hfinds _ _ htakes))]
    constructor
    · intro hsettles _ device' mount' htakes'
      rwa [menuAnswer_unique htakes.1 htakes'.1]
    · intro hkeeps
      exact hkeeps hphase _ _ htakes
  · refine iff_of_true ?_ fun _ device mount htakes => absurd htakes (hnone device mount)
    exact allOwnLuks_of_schema h hidle.schema

theorem allOwnLuks_espStep (h : AllOwnLuks devices s.toMounting) {replies : EspReplies}
    (hphase : s.phase = .esp) :
    AllOwnLuks devices (s.after (espStep replies s.toMounting)).2.toMounting ↔
      KeepsOwnLuks devices (.esp replies) s := by
  rcases espStep_takes_or_idle replies s.toMounting with
    ⟨device, mount, m', htakes, hstep, hschema, -⟩ | ⟨hnone, hidle⟩
  · have hentry : devices.OwnLuks (espEntry replies device mount) ↔ devices.mapping device = none :=
      ownLuks_of_none rfl rfl
    rw [hstep, allOwnLuks_takes h hschema hentry]
    constructor
    · intro hplain _ device' mount' htakes'
      rwa [menuAnswer_unique htakes.2.1 htakes'.2.1]
    · intro hkeeps
      exact hkeeps hphase _ _ htakes
  · refine iff_of_true ?_ fun _ device mount htakes => absurd htakes (hnone device mount)
    exact allOwnLuks_of_schema h fun phase m' hstep => (hidle phase m' hstep).1

/-- **One step of `mount_partitions`**: either it takes a device, and its entry decides, or it appends
nothing. -/
theorem allOwnLuks_step (h : AllOwnLuks devices s.toMounting) {step : MountStep}
    (hfinds : FindsMounted devices step s) :
    AllOwnLuks devices ((mountPartitions S devices.toDevices).step step s).2.toMounting ↔
      KeepsOwnLuks devices step s := by
  by_cases hphase : step.phase = s.phase
  · rw [mountPartitions_step hphase]
    cases step with
    | root replies => exact allOwnLuks_rootStep h hphase.symm hfinds
    | swap replies => exact allOwnLuks_swapStep h hphase.symm
    | additional replies => exact allOwnLuks_additionalStep h hphase.symm hfinds
    | esp replies => exact allOwnLuks_espStep h hphase.symm
  · rw [mountPartitions_step_of_ne hphase]
    refine iff_of_true h ?_
    cases step <;> exact fun heq => absurd heq.symm hphase

end Step

/-! ## The steps of `make_partitions_prepared` -/

/-- The file system of a root or additional partition. -/
def PreparedSettings.fileSys (prepared : PreparedSettings) (part : ReadyPartition) : Str :=
  if part.type = lit "root" then prepared.rootFs else part.fs

/-- The step leaves no LUKS data to another partition: no boot partition is a crypt mapping, and
for the others the variables are settled, unless the mount options cannot be asked for. -/
def PreparedStep.KeepsOwnLuks (devices : MappedDevices) (prepared : PreparedSettings)
    (step : PreparedStep) (s : PreparedRun) : Prop :=
  s.stopped = false → ∀ part, partInfo step.readyPart = .ok part →
    (part.type = lit "boot" → s.settings.system = lit "UEFI" →
      devices.mapping part.name = none) ∧
    (part.type = lit "root" ∨ part.type = lit "additional" →
      (selectFilesystem (prepared.fileSys part) s.settings.fs).fsOpts.isSome = true →
        step.current.mount.Settles devices s.settings.crypt.toLuksSettings part.name)

/-- `findmnt` reports the device that was mounted. -/
def PreparedStep.FindsMounted (devices : MappedDevices) (step : PreparedStep) (_ : PreparedRun) : Prop :=
  ∀ part, partInfo step.readyPart = .ok part → step.current.mount.Finds devices part.name

section PreparedStep

variable {S : Sorter Partition} {devices : MappedDevices} {prepared : PreparedSettings}
  {step : PreparedStep} {part : ReadyPartition} {m : Mounting}

/-- The LUKS fields of the entries are those of some entries before. -/
theorem allOwnLuks_of_sameLuksFields {partitions partitions' : List Partition}
    (h : SameLuksFields partitions partitions') :
    (∀ part ∈ partitions', devices.OwnLuks part) ↔ ∀ part ∈ partitions, devices.OwnLuks part := by
  have hfields (part part' : Partition) (heq : luksFields part = luksFields part')
      (hown : devices.OwnLuks part) : devices.OwnLuks part' := by
    obtain ⟨hdevice, hluks⟩ := Prod.mk.inj heq
    obtain ⟨hname, huuid⟩ := Prod.mk.inj hluks
    refine ⟨?_, ?_⟩
    · rw [← hname, ← hdevice]
      exact hown.mapperName
    · rw [← huuid, ← hdevice]
      exact hown.uuid
  constructor
  · intro hown part hpart
    obtain ⟨part', hpart', heq⟩ :=
      List.mem_map.mp ((h (luksFields part)).mpr (List.mem_map_of_mem hpart))
    exact hfields part' part heq (hown part' hpart')
  · intro hown part hpart
    obtain ⟨part', hpart', heq⟩ :=
      List.mem_map.mp ((h (luksFields part)).mp (List.mem_map_of_mem hpart))
    exact hfields part' part heq (hown part' hpart')

theorem preparedSubvolumes_luksFields {partitions result : List Partition}
    (h : preparedSubvolumes S prepared step part partitions = .ok result) :
    SameLuksFields partitions result := by
  unfold preparedSubvolumes at h
  split_ifs at h
  · exact mountExistingSubvols_luksFields h
  · exact btrfsCreateSubvols_luksFields h
  · exact Except.ok.inj h ▸ .refl _

/-- The subvolumes change nothing about the LUKS fields. -/
theorem allOwnLuks_withSubvolumes :
    AllOwnLuks devices (PreparedRun.withSubvolumes m
        (preparedSubvolumes S prepared step part m.schema)).2.toMounting ↔
      AllOwnLuks devices m := by
  rcases hsubvolumes : preparedSubvolumes S prepared step part m.schema with fault | schema
  · exact Iff.rfl
  · exact allOwnLuks_of_sameLuksFields (preparedSubvolumes_luksFields hsubvolumes)

/-- **A root or additional partition**, if the mount options can be asked for. -/
theorem mountedPart_ownLuks {fileSys : Str} (h : AllOwnLuks devices m)
    (hopts : (selectFilesystem fileSys m.settings.fs).fsOpts.isSome = true)
    (hfinds : step.current.mount.Finds devices part.name) :
    ∃ m', mountedPart devices.toDevices prepared step part fileSys m = .ok m' ∧
      (AllOwnLuks devices m' ↔
        step.current.mount.Settles devices m.settings.crypt.toLuksSettings part.name) := by
  obtain ⟨mountOpts, hmountOpts⟩ := selectMountOpts_of_isSome hopts step.current.opts true
  have hdescribes := @describes_mountPartition devices step.current.mount part.name
    m.settings.list.mountpoint part.mountpoint mountOpts
    { m with settings := { m.settings with
      list := { m.settings.list with partition := part.name }
      mount := part.mountpoint
      fs := { selectFilesystem fileSys m.settings.fs with mountOpts } } } hfinds
  simp only [mountedPart, mountCurrentPartition, hmountOpts, bind, Except.bind, pure, Except.pure]
  refine ⟨_, rfl, Iff.trans (allOwnLuks_append h (congrArg (· ++ [_]) mountPartition_schema)) ?_⟩
  rw [← hdescribes]
  exact ⟨fun hown => ⟨hown.mapperName, hown.uuid⟩, fun hown => ⟨hown.name, hown.uuid⟩⟩

theorem mountedPart_fault {fileSys : Str}
    (hopts : (selectFilesystem fileSys m.settings.fs).fsOpts.isSome = false) :
    mountedPart devices.toDevices prepared step part fileSys m = .error .badVariantAccess := by
  simp only [mountedPart, mountCurrentPartition, selectMountOpts_of_isNone hopts, bind,
    Except.bind]

/-- A boot partition gets an entry on a UEFI system only. -/
theorem bootPart_ownLuks (h : AllOwnLuks devices m) :
    AllOwnLuks devices (bootPart prepared step part m) ↔
      (m.settings.system = lit "UEFI" → devices.mapping part.name = none) := by
  unfold bootPart makeEspPrepared
  dsimp only
  by_cases hsystem : m.settings.system = lit "UEFI"
  · rw [if_neg (not_not.mpr hsystem)]
    refine Iff.trans (allOwnLuks_append h rfl) ?_
    rw [ownLuks_of_none rfl rfl]
    exact (true_imp_iff.symm.trans (imp_congr_left (iff_of_true trivial hsystem)))
  · rw [if_pos hsystem]
    exact iff_of_true h fun huefi => absurd huefi hsystem

theorem preparedPart_boot (h : part.type = lit "boot") :
    preparedPart devices.toDevices prepared step part m = .ok (bootPart prepared step part m) :=
  if_pos h

/-- A root and an additional partition are mounted by the same code. -/
theorem preparedPart_mounted (h : part.type = lit "root" ∨ part.type = lit "additional") :
    ∃ m₁, m₁.schema = m.schema ∧ m₁.settings.crypt = m.settings.crypt ∧
      m₁.settings.fs = m.settings.fs ∧
      ∃ keep : Mounting → Mounting, (∀ m', (keep m').schema = m'.schema) ∧
        preparedPart devices.toDevices prepared step part m =
          (mountedPart devices.toDevices prepared step part (prepared.fileSys part) m₁).map keep := by
  have hboot : ¬ part.type = lit "boot" := by
    rcases h with h | h <;> rw [h] <;> decide +kernel
  unfold preparedPart PreparedSettings.fileSys
  rw [if_neg hboot]
  by_cases hroot : part.type = lit "root"
  · refine ⟨{ m with settings := { m.settings with rootPart := part.name } }, rfl, rfl, rfl, id,
      fun _ => rfl, ?_⟩
    rw [if_pos hroot, if_pos hroot, Except.map_id]
    rfl
  · refine ⟨m, rfl, rfl, rfl, fun m' => { m' with settings := { m'.settings with
      lvmSepBoot := lvmSepBootAt part.mountpoint step.isBootLvm m'.settings.lvmSepBoot } },
      fun _ => rfl, ?_⟩
    rw [if_neg hroot, if_neg hroot, if_pos (h.resolve_left hroot)]
    rcases mountedPart devices.toDevices prepared step part part.fs m with fault | m'
    · rfl
    · rfl

theorem preparedPart_other (hboot : ¬ part.type = lit "boot")
    (h : ¬ (part.type = lit "root" ∨ part.type = lit "additional")) :
    preparedPart devices.toDevices prepared step part m = .ok m := by
  rw [not_or] at h
  rw [preparedPart, if_neg hboot, if_neg h.1, if_neg h.2]

/-- **One step of `make_partitions_prepared`.** -/
theorem allOwnLuks_preparedStep {s : PreparedRun} (h : AllOwnLuks devices s.toMounting)
    (hfinds : step.FindsMounted devices s) :
    AllOwnLuks devices
        ((makePartitionsPrepared S devices.toDevices prepared).step step s).2.toMounting ↔
      step.KeepsOwnLuks devices prepared s := by
  unfold PreparedStep.KeepsOwnLuks
  rcases hstopped : s.stopped with _ | _
  swap
  · rw [makePartitionsPrepared]
    simp only [hstopped, if_true]
    exact iff_of_true h fun hrunning => absurd hrunning Bool.noConfusion
  rw [makePartitionsPrepared]
  simp only [hstopped, Bool.false_eq_true, if_false]
  rcases hpart : partInfo step.readyPart with fault | part
  · exact iff_of_true h fun _ part hpart => by cases hpart
  simp only [Except.ok.injEq, forall_eq', true_imp_iff]
  by_cases hboot : part.type = lit "boot"
  · rw [preparedPart_boot hboot]
    refine Iff.trans (allOwnLuks_withSubvolumes.trans (bootPart_ownLuks h)) ?_
    refine ⟨fun hplain => ⟨fun _ => hplain, fun htype => ?_⟩, fun hkeeps => hkeeps.1 hboot⟩
    rw [hboot] at htype
    exact absurd htype (by decide +kernel)
  rw [and_iff_right fun htype => absurd htype hboot]
  by_cases hmounted : part.type = lit "root" ∨ part.type = lit "additional"
  swap
  · rw [preparedPart_other hboot hmounted]
    exact iff_of_true (allOwnLuks_withSubvolumes.mpr h) fun htype => absurd htype hmounted
  obtain ⟨m₁, hschema, hcrypt, hfs, keep, hkeep, hpart'⟩ :=
    @preparedPart_mounted devices prepared step part s.toMounting hmounted
  rw [hpart', ← hfs, ← hcrypt]
  rcases hopts : (selectFilesystem (prepared.fileSys part) m₁.settings.fs).fsOpts.isSome with _ | _
  · rw [mountedPart_fault hopts]
    exact iff_of_true h fun _ hsome => by cases hsome
  · have hbefore : AllOwnLuks devices m₁ := by
      rw [AllOwnLuks, hschema]
      exact h
    obtain ⟨m', hm', hown⟩ := mountedPart_ownLuks hbefore hopts (hfinds part hpart)
    have hafter : AllOwnLuks devices (keep m') ↔ AllOwnLuks devices m' := by
      rw [AllOwnLuks, hkeep]
      rfl
    rw [hm']
    refine Iff.trans (allOwnLuks_withSubvolumes.trans (hafter.trans hown)) ?_
    exact ⟨fun hsettles _ _ => hsettles, fun hsettles => hsettles hmounted rfl⟩

end PreparedStep

/-! ## Runs -/

/-- `/dev/mapper/home` is a crypt mapping on `/dev/sda5`. -/
def cryptHome : MappedDevices where
  isCrypt device := device = lit "/dev/mapper/home"
  nameOf device := device.drop 12
  lvmCryptoLuks := []
  cryptLvm2Member := []
  partCryptoLuks := lit "/dev/sda5\n"
  holds cryptpart luksName := cryptpart = lit "/dev/sda5" && luksName = lit "home"
  uuidOf device := if device = lit "/dev/sda5" then lit "5a5a-5a5a" else []
  nameOf_ne_nil := by
    intro device h
    rw [of_decide_eq_true h]
    decide +kernel
  mapping device :=
    if device = lit "/dev/mapper/home" then some ⟨lit "home", lit "/dev/sda5"⟩ else none
  headerUuid device := if device = lit "/dev/sda5" then lit "5a5a-5a5a" else []

/-- The partitions of a system with an encrypted home. -/
def withCryptHome : MountSettings :=
  { twoPartitions with
    list := { twoPartitions.list with
      partitions := [lit "/dev/sda2 40G", lit "/dev/mapper/home 100G", lit "/dev/sda3 20G"]
      numberPartitions := 3 } }

/-- The root, no swap, the encrypted home and a plain `/var`. -/
def varAfterHome : List MountStep :=
  [.root (.keep 0 ⟨true, true, lit "/dev/sda2"⟩), .swap (.keep 0),
    .additional (.keep 2 (lit "/home") ⟨true, true, lit "/dev/mapper/home"⟩),
    .additional (.keep 2 (lit "/var") ⟨true, true, lit "/dev/sda3"⟩)]

theorem varAfterHome_finds : (mountPartitions .stable cryptHome.toDevices).Along (FindsMounted cryptHome)
    varAfterHome (.start withCryptHome) := by
  refine ⟨?_, trivial, ?_, ?_, trivial⟩
  · intro device htakes
    rw [@menuAnswer_unique _ _ (lit "/dev/sda2") device ⟨0, rfl, by decide +kernel⟩ htakes.2.2.1]
    exact congrArg cryptHome.queriedName (by decide +kernel)
  · intro device mount htakes
    rw [@menuAnswer_unique _ _ (lit "/dev/mapper/home") device ⟨2, rfl, by decide +kernel⟩ htakes.1]
    exact congrArg cryptHome.queriedName (by decide +kernel)
  · intro device mount htakes
    rw [@menuAnswer_unique _ _ (lit "/dev/sda3") device ⟨2, rfl, by decide +kernel⟩ htakes.1]
    exact congrArg cryptHome.queriedName (by decide +kernel)

/-- The root, no swap and the encrypted home. -/
def homeOnly : List MountStep :=
  [.root (.keep 0 ⟨true, true, lit "/dev/sda2"⟩), .swap (.keep 0),
    .additional (.keep 2 (lit "/home") ⟨true, true, lit "/dev/mapper/home"⟩)]

/-- The same from the settings. -/
def homePrepared : List PreparedStep :=
  [.keep ⟨lit "/dev/sda2", lit "/", lit "40G", lit "ext4", lit "root"⟩,
    .keep ⟨lit "/dev/mapper/home", lit "/home", lit "100G", lit "ext4", lit "additional"⟩]

theorem partInfo_keep {part part' : ReadyPartition} (h : partInfo part.encode = .ok part)
    (hpart : partInfo (PreparedStep.keep part).readyPart = .ok part') : part' = part :=
  Except.ok.inj (hpart.symm.trans h)

theorem homeOnly_finds : (mountPartitions .stable cryptHome.toDevices).Along (FindsMounted cryptHome)
    homeOnly (.start withCryptHome) := by
  refine ⟨fun device htakes => ?_, trivial, fun device mount htakes => ?_, trivial⟩
  · rw [@menuAnswer_unique _ _ (lit "/dev/sda2") device ⟨0, rfl, by decide +kernel⟩ htakes.2.2.1]
    exact congrArg cryptHome.queriedName (by decide +kernel)
  · rw [@menuAnswer_unique _ _ (lit "/dev/mapper/home") device ⟨2, rfl, by decide +kernel⟩ htakes.1]
    exact congrArg cryptHome.queriedName (by decide +kernel)

theorem homeOnly_keeps : (mountPartitions .stable cryptHome.toDevices).Along (KeepsOwnLuks cryptHome)
    homeOnly (.start withCryptHome) := by
  refine ⟨fun _ device htakes => ?_, fun _ device htakes => ?_, fun _ device mount htakes => ?_, trivial⟩
  · rw [@menuAnswer_unique _ _ (lit "/dev/sda2") device ⟨0, rfl, by decide +kernel⟩ htakes.2.2.1,
      MountReplies.Settles, if_neg (by decide +kernel)]
    exact ⟨by decide +kernel, by decide +kernel⟩
  · obtain ⟨n, hn, hanswer, -⟩ := htakes
    rw [@menuAnswer_unique _ _ (lit "None") device ⟨0, rfl, by decide +kernel⟩ ⟨n, hn, hanswer⟩]
    decide +kernel
  · rw [@menuAnswer_unique _ _ (lit "/dev/mapper/home") device ⟨2, rfl, by decide +kernel⟩ htakes.1,
      MountReplies.Settles, if_pos (by decide +kernel)]
    exact ⟨by decide +kernel, by decide +kernel⟩

theorem homePrepared_keeps :
    (makePartitionsPrepared .stable cryptHome.toDevices ⟨lit "grub", lit "ext4", []⟩).Along
      (PreparedStep.KeepsOwnLuks cryptHome ⟨lit "grub", lit "ext4", []⟩) homePrepared
      (.start withCryptHome) := by
  refine ⟨fun _ part hpart => ?_, fun _ part hpart => ?_, trivial⟩
  · rw [partInfo_keep (by decide +kernel) hpart]
    refine ⟨fun htype => absurd htype (by decide +kernel), fun _ _ => ?_⟩
    rw [MountReplies.Settles, if_neg (by decide +kernel)]
    exact ⟨by decide +kernel, by decide +kernel⟩
  · rw [partInfo_keep (by decide +kernel) hpart]
    refine ⟨fun htype => absurd htype (by decide +kernel), fun _ _ => ?_⟩
    rw [MountReplies.Settles, if_pos (by decide +kernel)]
    exact ⟨by decide +kernel, by decide +kernel⟩

end CliInstaller
