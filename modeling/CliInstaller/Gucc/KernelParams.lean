import CliInstaller.Gucc.Fstab
import CliInstaller.Gucc.StringUtils

/-!
# `gucc::fs`: the kernel command line

One pass over the partitions collects the parameters of the root and swap partitions. The swap
settings and the root settings write different variables.

Source: `gucc/src/kernel_params.cpp`.

## Main definitions

* `KernelState`, `kernelStep`, `getKernelParams`: the variables of the loop, its body, and the
  function
* `rootflags`, `rootParams`: what a root partition adds
* `kernelRootStep`: the loop body after the swap settings

## Main results

* `kernelLoop_of_root`: the loop over a list with one root does what the root does after all the
  swap settings
* `kernelLoop_spec`: what the root partition adds
* `getKernelParams_spec`: the parameters, when there is one root partition
-/

namespace CliInstaller

/-- The variables of the loop. -/
structure KernelState where
  kernelParamsList : List Str
  cryptdeviceParams : List Str
  rootUuid : Option Str
  swapUuid : Option Str
  swapMappername : Option Str
  deriving DecidableEq, Repr

def isRootOnBtrfs (partition : Partition) : Bool :=
  partition.mountpoint = ['/'] && partition.fstype = lit "btrfs"

def isRootOnZfs (partition : Partition) : Bool :=
  partition.mountpoint = ['/'] && partition.fstype = lit "zfs"

/-- The swap settings of the loop body. -/
def swapSettings (state : KernelState) (partition : Partition) : KernelState :=
  if partition.fstype = lit "linuxswap" then
    match partition.luksMapperName with
    | none => { state with swapUuid := some partition.uuidStr }
    | some luksMapperName => { state with swapMappername := some luksMapperName }
  else state

/-- The LUKS parameters of the loop body. The LUKS UUID is dereferenced unchecked. -/
def cryptdeviceSettings (state : KernelState) (partition : Partition) : Except Fault KernelState :=
  if partition.mountpoint = ['/'] then
    match partition.luksMapperName, partition.luksUuid with
    | none, _ => .ok state
    | some _, none => .error .emptyOptional
    | some luksMapperName, some luksUuid =>
      .ok { state with cryptdeviceParams :=
        [lit "cryptdevice=UUID=" ++ luksUuid ++ [':'] ++ luksMapperName,
          lit "root=/dev/mapper/" ++ luksMapperName] }
  else .ok state

/-- The root UUID of the loop body. -/
def rootSettings (state : KernelState) (partition : Partition) : KernelState :=
  if partition.mountpoint = ['/'] then { state with rootUuid := some partition.uuidStr } else state

/-- The btrfs and zfs parameters of the loop body; `none` when the root dataset is missing. -/
def fsSettings (zfsRootDataset : Option Str) (state : KernelState) (partition : Partition) :
    Option KernelState :=
  match isRootOnBtrfs partition, partition.subvolume with
  | true, some subvolume =>
    some { state with
      kernelParamsList := state.kernelParamsList ++ [lit "rootflags=subvol=" ++ subvolume] }
  | _, _ =>
    if isRootOnZfs partition then
      zfsRootDataset.map fun dataset =>
        { state with kernelParamsList := state.kernelParamsList ++ [lit "root=ZFS=" ++ dataset] }
    else some state

/-- The body of the loop. -/
def kernelStep (zfsRootDataset : Option Str) (state : KernelState) (partition : Partition) :
    Except Fault (Option KernelState) := do
  let state ← cryptdeviceSettings (swapSettings state partition) partition
  return fsSettings zfsRootDataset (rootSettings state partition) partition

/-- The loop, left when the function returns `std::nullopt`. -/
def kernelLoop (zfsRootDataset : Option Str) :
    List Partition → KernelState → Except Fault (Option KernelState)
  | [], state => .ok (some state)
  | partition :: partitions, state => do
    match ← kernelStep zfsRootDataset state partition with
    | none => return none
    | some state => kernelLoop zfsRootDataset partitions state

/-- The parameters that are given, and `rw`. -/
def givenParams (kernelParams : Str) : List Str :=
  makeMultiline kernelParams false ' ' ++ [lit "rw"]

/-- The parameters that resume from swap. -/
def resumeParams (state : KernelState) : List Str :=
  (match state.swapUuid with
    | some swapUuid => if !swapUuid.isEmpty then [lit "resume=UUID=" ++ swapUuid] else []
    | none => []) ++
  match state.swapMappername with
  | some swapMappername =>
    if !swapMappername.isEmpty then [lit "resume=/dev/mapper/" ++ swapMappername] else []
  | none => []

def getKernelParams (partitions : List Partition) (kernelParams : Str)
    (zfsRootDataset : Option Str) : Except Fault (Option (List Str)) := do
  match ← kernelLoop zfsRootDataset partitions
      ⟨givenParams kernelParams, [], none, none, none⟩ with
  | none => return none
  | some state =>
    match state.rootUuid with
    | none => return none
    | some rootUuid =>
      if rootUuid.isEmpty then return none
      let kernelParamsList :=
        if !state.cryptdeviceParams.isEmpty then state.kernelParamsList ++ state.cryptdeviceParams
        else state.kernelParamsList ++ [lit "root=UUID=" ++ rootUuid]
      return some (kernelParamsList ++ resumeParams state)

/-! ## What the loop collects -/

/-- The flags a root partition adds. -/
def rootflags (partition : Partition) : List Str :=
  if partition.fstype = lit "btrfs" then
    match partition.subvolume with
    | some subvolume => [lit "rootflags=subvol=" ++ subvolume]
    | none => []
  else []

/-- The parameters that name an encrypted root. -/
def cryptdeviceParams (partition : Partition) : List Str :=
  match partition.luksMapperName, partition.luksUuid with
  | some luksMapperName, some luksUuid =>
    [lit "cryptdevice=UUID=" ++ luksUuid ++ [':'] ++ luksMapperName,
      lit "root=/dev/mapper/" ++ luksMapperName]
  | _, _ => []

/-- The parameters that name the root. -/
def rootParams (partition : Partition) : List Str :=
  if partition.luksMapperName.isSome then cryptdeviceParams partition
  else [lit "root=UUID=" ++ partition.uuidStr]

/-- The loop body after the swap settings. -/
def kernelRootStep (zfsRootDataset : Option Str) (state : KernelState) (partition : Partition) :
    Except Fault (Option KernelState) := do
  let state ← cryptdeviceSettings state partition
  return fsSettings zfsRootDataset (rootSettings state partition) partition

/-- The parameters of the file system of the root. -/
def rootFsParams (zfsRootDataset : Option Str) (root : Partition) : List Str :=
  if isRootOnZfs root then [lit "root=ZFS=" ++ zfsRootDataset.getD []] else rootflags root

/-- The partitions mounted at `/`. -/
def roots (partitions : List Partition) : List Partition :=
  partitions.filter fun p => p.mountpoint = ['/']

section Loop

variable {zfsRootDataset : Option Str} {state : KernelState} {partition : Partition}
  {partitions : List Partition}

/-- What the swap settings leave alone. -/
structure SameRoot (state state' : KernelState) : Prop where
  kernelParamsList : state'.kernelParamsList = state.kernelParamsList
  cryptdeviceParams : state'.cryptdeviceParams = state.cryptdeviceParams
  rootUuid : state'.rootUuid = state.rootUuid

theorem SameRoot.refl (state : KernelState) : SameRoot state state := ⟨rfl, rfl, rfl⟩

theorem SameRoot.trans {state state' state'' : KernelState} (h : SameRoot state state')
    (h' : SameRoot state' state'') : SameRoot state state'' :=
  ⟨h'.1.trans h.1, h'.2.trans h.2, h'.3.trans h.3⟩

theorem sameRoot_swapSettings (state : KernelState) (partition : Partition) :
    SameRoot state (swapSettings state partition) := by
  rw [swapSettings]
  split_ifs
  · split <;> exact ⟨rfl, rfl, rfl⟩
  · exact .refl state

theorem kernelStep_of_not_root (hm : partition.mountpoint ≠ ['/']) :
    kernelStep zfsRootDataset state partition = .ok (some (swapSettings state partition)) := by
  simp [kernelStep, cryptdeviceSettings, rootSettings, fsSettings, isRootOnBtrfs, isRootOnZfs, hm,
    bind, Except.bind, pure, Except.pure]

/-- The two variables the swap settings write. -/
theorem swapSettings_eq (state : KernelState) (part : Partition) :
    swapSettings state part = { state with
      swapUuid := if part.fstype = lit "linuxswap" ∧ part.luksMapperName = none then
        some part.uuidStr else state.swapUuid
      swapMappername := if part.fstype = lit "linuxswap" ∧ part.luksMapperName ≠ none then
        part.luksMapperName else state.swapMappername } := by
  rw [swapSettings]
  by_cases hs : part.fstype = lit "linuxswap"
  · rcases hname : part.luksMapperName with _ | name <;> simp [hs]
  · simp [hs]

/-- The swap settings do not read what the root settings write, nor the other way round. -/
theorem kernelRootStep_swapSettings (part root : Partition) :
    kernelRootStep zfsRootDataset (swapSettings state part) root =
      (kernelRootStep zfsRootDataset state root).map (Option.map (swapSettings · part)) := by
  have hcrypt : ∀ state, cryptdeviceSettings (swapSettings state part) root =
      (cryptdeviceSettings state root).map (swapSettings · part) := by
    intro state
    simp only [cryptdeviceSettings, swapSettings_eq]
    split_ifs
    all_goals
      try rcases root.luksMapperName with _ | name <;> rcases root.luksUuid with _ | uuid
      all_goals rfl
  have hroot : ∀ state, rootSettings (swapSettings state part) root =
      swapSettings (rootSettings state root) part := by
    intro state
    simp only [rootSettings, swapSettings_eq]
    split_ifs <;> rfl
  have hfs : ∀ state, fsSettings zfsRootDataset (swapSettings state part) root =
      (fsSettings zfsRootDataset state root).map (swapSettings · part) := by
    intro state
    simp only [fsSettings, swapSettings_eq]
    rcases isRootOnBtrfs root <;> rcases root.subvolume with _ | subvolume <;>
      rcases isRootOnZfs root <;> rcases zfsRootDataset with _ | dataset <;> rfl
  rw [kernelRootStep, kernelRootStep, hcrypt]
  rcases cryptdeviceSettings state root with fault | state'
  · rfl
  · simp [bind, Except.bind, pure, Except.pure, Except.map, hroot, hfs]

theorem kernelRootStep_foldl (root : Partition) :
    kernelRootStep zfsRootDataset (partitions.foldl swapSettings state) root =
      (kernelRootStep zfsRootDataset state root).map
        (Option.map fun state => partitions.foldl swapSettings state) := by
  induction partitions generalizing state with
  | nil =>
    rw [List.foldl_nil]
    rcases kernelRootStep zfsRootDataset state root with fault | _ | next <;> rfl
  | cons part partitions ih =>
    rw [List.foldl_cons, ih, kernelRootStep_swapSettings]
    rcases kernelRootStep zfsRootDataset state root with fault | _ | next <;> rfl

/-- Without a root the loop collects the swap settings. -/
theorem kernelLoop_of_roots_nil (hroots : roots partitions = []) :
    kernelLoop zfsRootDataset partitions state =
      .ok (some (partitions.foldl swapSettings state)) := by
  induction partitions generalizing state with
  | nil => rfl
  | cons part partitions ih =>
    simp only [roots, List.filter_cons, decide_eq_true_eq] at hroots
    split_ifs at hroots with hm
    rw [kernelLoop, kernelStep_of_not_root hm]
    exact ih hroots

/-- **The loop over a list with one root** does what the root does after all the swap settings. -/
theorem kernelLoop_of_root {root : Partition} (hroots : roots partitions = [root]) :
    kernelLoop zfsRootDataset partitions state =
      kernelRootStep zfsRootDataset (partitions.foldl swapSettings state) root := by
  induction partitions generalizing state with
  | nil => simp [roots] at hroots
  | cons part partitions ih =>
    simp only [roots, List.filter_cons, decide_eq_true_eq] at hroots
    rw [kernelLoop, List.foldl_cons]
    split_ifs at hroots with hm
    · obtain ⟨rfl, hrest⟩ := List.cons.inj hroots
      rw [kernelRootStep_foldl]
      show (kernelRootStep zfsRootDataset (swapSettings state part) part >>= _) = _
      rcases kernelRootStep zfsRootDataset (swapSettings state part) part with fault | _ | next
      · rfl
      · rfl
      · exact kernelLoop_of_roots_nil hrest
    · rw [kernelStep_of_not_root hm]
      exact ih hroots

/-- What a root with its LUKS UUID does. -/
theorem kernelRootStep_eq {root : Partition} (hm : root.mountpoint = ['/'])
    (hluks : root.luksMapperName ≠ none → root.luksUuid ≠ none) :
    kernelRootStep zfsRootDataset state root =
      .ok (if isRootOnZfs root = true ∧ zfsRootDataset = none then none
        else some { state with
          kernelParamsList := state.kernelParamsList ++ rootFsParams zfsRootDataset root
          cryptdeviceParams := if root.luksMapperName = none then state.cryptdeviceParams
            else cryptdeviceParams root
          rootUuid := some root.uuidStr }) := by
  have hfs : ∀ state, fsSettings zfsRootDataset state root =
      if isRootOnZfs root = true ∧ zfsRootDataset = none then none
      else some { state with
        kernelParamsList := state.kernelParamsList ++ rootFsParams zfsRootDataset root } := by
    intro state
    simp only [fsSettings, isRootOnBtrfs, isRootOnZfs, rootFsParams, rootflags, hm, decide_true,
      Bool.true_and, decide_eq_true_eq]
    by_cases hb : root.fstype = lit "btrfs"
    · rcases root.subvolume with _ | subvolume <;> simp [hb, lit_eq]
    · rcases zfsRootDataset with _ | dataset <;> simp [hb] <;> split_ifs <;> simp
  rw [kernelRootStep, cryptdeviceSettings, if_pos hm]
  rcases hname : root.luksMapperName with _ | name
  · simp [bind, Except.bind, pure, Except.pure, hfs, rootSettings, hm]
  · obtain ⟨uuid, huuid⟩ := Option.ne_none_iff_exists'.mp (hluks (by simp [hname]))
    simp [bind, Except.bind, pure, Except.pure, hfs, rootSettings, hm, cryptdeviceParams, hname,
      huuid]

theorem sameRoot_foldl (partitions : List Partition) (state : KernelState) :
    SameRoot state (partitions.foldl swapSettings state) := by
  induction partitions generalizing state with
  | nil => exact .refl state
  | cons part partitions ih => exact (sameRoot_swapSettings state part).trans (ih _)

/-- **The loop over a list with one root partition** adds the root's flags and device. -/
theorem kernelLoop_spec {partitions : List Partition} {root : Partition}
    (hroot : (partitions.filter fun p => p.mountpoint = ['/']) = [root])
    (hzfs : root.fstype ≠ lit "zfs") {result : Option KernelState}
    (hrun : kernelLoop zfsRootDataset partitions state = .ok result) :
    (root.luksMapperName ≠ none → root.luksUuid ≠ none) ∧
      ∃ state', result = some state' ∧
        state'.kernelParamsList = state.kernelParamsList ++ rootflags root ∧
        state'.cryptdeviceParams = (if root.luksMapperName = none then state.cryptdeviceParams
          else cryptdeviceParams root) ∧
        state'.rootUuid = some root.uuidStr := by
  have hm : root.mountpoint = ['/'] := by
    have hmem : root ∈ partitions.filter fun p => p.mountpoint = ['/'] := by simp [hroot]
    simpa using (List.mem_filter.mp hmem).2
  rw [kernelLoop_of_root hroot] at hrun
  -- A root with a mapper name and no LUKS UUID is a fault, so the loop has not met one.
  have hluks : root.luksMapperName ≠ none → root.luksUuid ≠ none := by
    intro hname huuid
    obtain ⟨name, hname⟩ := Option.ne_none_iff_exists'.mp hname
    simp [kernelRootStep, cryptdeviceSettings, hm, hname, huuid, bind, Except.bind] at hrun
  have hnot : isRootOnZfs root = false := by simp [isRootOnZfs, hzfs]
  rw [kernelRootStep_eq hm hluks, if_neg (by simp [hnot])] at hrun
  obtain rfl := Except.ok.inj hrun
  have hsame := sameRoot_foldl partitions state
  refine ⟨hluks, _, rfl, ?_, ?_, rfl⟩
  · simp [rootFsParams, hnot, hsame.kernelParamsList]
  · simp [hsame.cryptdeviceParams]

end Loop

theorem startsWith_of_mem_resumeParams {state : KernelState} {param : Str}
    (h : param ∈ resumeParams state) : startsWith param (lit "resume=") = true := by
  rw [resumeParams] at h
  rcases List.mem_append.mp h with h | h <;> split at h <;> try split at h
  all_goals simp_all [lit_eq, startsWith]

/-- **The parameters of a list with one root partition**: those given, the root's flags, the root
device, and those that resume from swap. -/
theorem getKernelParams_spec {partitions : List Partition} {root : Partition}
    {kernelParams : Str} {zfsRootDataset : Option Str} {params : List Str}
    (hroot : (partitions.filter fun p => p.mountpoint = ['/']) = [root])
    (hzfs : root.fstype ≠ lit "zfs")
    (hok : getKernelParams partitions kernelParams zfsRootDataset = .ok (some params)) :
    root.uuidStr ≠ [] ∧ (root.luksMapperName ≠ none → root.luksUuid ≠ none) ∧
      ∃ resume : List Str, (∀ param ∈ resume, startsWith param (lit "resume=") = true) ∧
        params = givenParams kernelParams ++ (rootflags root ++ rootParams root ++ resume) := by
  rw [getKernelParams] at hok
  rcases hrun : kernelLoop zfsRootDataset partitions
      ⟨givenParams kernelParams, [], none, none, none⟩ with fault | result
  · simp [hrun, bind, Except.bind] at hok
  obtain ⟨hluks, state, rfl, hlist, hcrypt, huuid⟩ := kernelLoop_spec hroot hzfs hrun
  by_cases hempty : root.uuidStr = []
  · simp [hrun, bind, Except.bind, pure, Except.pure, huuid, hempty] at hok
  refine ⟨hempty, hluks, resumeParams state, fun _ => startsWith_of_mem_resumeParams, ?_⟩
  simp only [hrun, bind, Except.bind, pure, Except.pure, huuid, hlist, hcrypt,
    List.isEmpty_eq_false_iff.mpr hempty, Bool.false_eq_true, if_false] at hok
  obtain rfl := Option.some.inj (Except.ok.inj hok)
  rcases hname : root.luksMapperName with _ | name
  · simp [rootParams, hname]
  · obtain ⟨uuid, hluksUuid⟩ := Option.ne_none_iff_exists'.mp (hluks (by simp [hname]))
    simp [rootParams, cryptdeviceParams, hname, hluksUuid]

end CliInstaller
