import Mathlib.Data.List.Basic
import CliInstaller.Gucc.KernelParams

/-!
# The kernel command line: the order of the partitions

The loop over a list with one root does what the root does after all the swap settings, so their
order does not matter. The LUKS UUID of the root is dereferenced where only its mapper name is known
to be set.

## Main definitions

* `NamedOnly`, `LuksUuidsSet`: a root with a mapper name and no LUKS UUID; none of them is reached
* `OneRootOneSwap`: the lists with at most one root and at most one swap partition
* `ParamsFollow`: what the parameters are

## Main results

* `kernelStep_error_iff`, `kernelStep_none_iff`: when the loop is left
* `getKernelParams_returns_iff`: when no empty optional is dereferenced
* `getKernelParams_of_oneRootOneSwap`: the order does not matter, and what the parameters are
-/

namespace CliInstaller

/-- A root with a mapper name and no LUKS UUID. -/
def NamedOnly (partition : Partition) : Prop :=
  partition.mountpoint = ['/'] ∧ partition.luksMapperName ≠ none ∧ partition.luksUuid = none

/-- A root with a mapper name and no LUKS UUID comes after a zfs root without a dataset. -/
def LuksUuidsSet (zfsRootDataset : Option Str) (partitions : List Partition) : Prop :=
  ∀ before part after, partitions = before ++ part :: after → NamedOnly part →
    zfsRootDataset = none ∧ ∃ root ∈ before, isRootOnZfs root = true

/-! ## When the loop is left -/

section Left

variable {zfsRootDataset : Option Str} {state : KernelState} {part : Partition}

/-- The loop body faults on a root with a mapper name and no LUKS UUID. -/
theorem kernelStep_error_iff :
    (∃ fault, kernelStep zfsRootDataset state part = .error fault) ↔ NamedOnly part := by
  simp only [kernelStep, cryptdeviceSettings, NamedOnly]
  split_ifs with hm
  · rcases part.luksMapperName with _ | name <;> rcases part.luksUuid with _ | uuid <;>
      simp [bind, Except.bind, pure, Except.pure, hm]
  · simp [bind, Except.bind, pure, Except.pure, hm]

/-- The file system settings fail on a zfs root without a dataset. -/
theorem fsSettings_eq_none_iff :
    fsSettings zfsRootDataset state part = none ↔
      zfsRootDataset = none ∧ isRootOnZfs part = true := by
  have hbtrfs : isRootOnBtrfs part = true → isRootOnZfs part = false := by
    intro h
    simp only [isRootOnBtrfs, Bool.and_eq_true, decide_eq_true_eq] at h
    simp [isRootOnZfs, h.2, lit_eq]
  rw [fsSettings]
  split
  · rename_i hroot _
    simp [hbtrfs hroot]
  · split_ifs with h
    · simp [h]
    · simp [h]

/-- The loop body returns from the function on a zfs root without a dataset. -/
theorem kernelStep_none_iff :
    kernelStep zfsRootDataset state part = .ok none ↔
      ¬ NamedOnly part ∧ zfsRootDataset = none ∧ isRootOnZfs part = true := by
  rw [← @kernelStep_error_iff zfsRootDataset state part, kernelStep]
  rcases cryptdeviceSettings (swapSettings state part) part with fault | state'
  · simp [bind, Except.bind]
  · simp [bind, Except.bind, pure, Except.pure, fsSettings_eq_none_iff]

/-- The loop returns unless it reaches a root with a mapper name and no LUKS UUID. -/
theorem kernelLoop_returns_iff {partitions : List Partition} :
    (∃ result, kernelLoop zfsRootDataset partitions state = .ok result) ↔
      LuksUuidsSet zfsRootDataset partitions := by
  induction partitions generalizing state with
  | nil => simp [kernelLoop, LuksUuidsSet]
  | cons part partitions ih =>
    rw [kernelLoop]
    rcases hstep : kernelStep zfsRootDataset state part with fault | _ | next
    · have hnamed : NamedOnly part := kernelStep_error_iff.mp ⟨fault, hstep⟩
      simp only [bind, Except.bind, reduceCtorEq, exists_false, false_iff]
      intro h
      obtain ⟨-, root, hroot, -⟩ := h [] part partitions rfl hnamed
      exact List.not_mem_nil hroot
    · obtain ⟨hnamed, hdataset, hzfs⟩ := kernelStep_none_iff.mp hstep
      simp only [bind, Except.bind, pure, Except.pure, Except.ok.injEq, exists_eq', true_iff]
      rintro (_ | ⟨first, before⟩) named after hsplit hnamed'
      · obtain ⟨rfl, -⟩ := List.cons.inj hsplit
        exact absurd hnamed' hnamed
      · obtain ⟨rfl, -⟩ := List.cons.inj hsplit
        exact ⟨hdataset, part, List.mem_cons_self, hzfs⟩
    · have hnamed : ¬ NamedOnly part := by
        rw [← @kernelStep_error_iff zfsRootDataset state part, hstep]
        simp
      have hzfs : zfsRootDataset = none → isRootOnZfs part ≠ true := by
        intro hdataset hzfs
        rw [kernelStep_none_iff.mpr ⟨hnamed, hdataset, hzfs⟩] at hstep
        simp at hstep
      refine (@ih next).trans ⟨fun h => ?_, fun h => ?_⟩
      · rintro (_ | ⟨first, before⟩) named after hsplit hnamed'
        · obtain ⟨rfl, -⟩ := List.cons.inj hsplit
          exact absurd hnamed' hnamed
        · obtain ⟨rfl, hrest⟩ := List.cons.inj hsplit
          obtain ⟨hdataset, root, hroot, hroot'⟩ := h before named after hrest hnamed'
          exact ⟨hdataset, root, List.mem_cons_of_mem part hroot, hroot'⟩
      · intro before named after hsplit hnamed'
        obtain ⟨hdataset, root, hroot, hroot'⟩ :=
          h (part :: before) named after (by rw [hsplit, List.cons_append]) hnamed'
        rcases List.mem_cons.mp hroot with rfl | hroot
        · exact absurd hroot' (hzfs hdataset)
        · exact ⟨hdataset, root, hroot, hroot'⟩

end Left

/-- Once the loop has returned, so does the function. -/
theorem getKernelParams_ok_iff_kernelLoop {partitions : List Partition} {kernelParams : Str}
    {zfsRootDataset : Option Str} :
    (∃ result, getKernelParams partitions kernelParams zfsRootDataset = .ok result) ↔
      ∃ result, kernelLoop zfsRootDataset partitions
        ⟨givenParams kernelParams, [], none, none, none⟩ = .ok result := by
  rw [getKernelParams]
  rcases kernelLoop zfsRootDataset partitions ⟨givenParams kernelParams, [], none, none, none⟩ with
    fault | _ | ⟨list, crypt, _ | rootUuid, swapUuid, swapMappername⟩
  · simp [bind, Except.bind]
  · simp [bind, Except.bind, pure, Except.pure]
  · simp [bind, Except.bind, pure, Except.pure]
  · simp only [bind, Except.bind, pure, Except.pure]
    split_ifs <;> simp

/-- **When no empty optional is dereferenced**: every root with a mapper name and no LUKS UUID comes
after a zfs root for which the dataset is missing. -/
theorem getKernelParams_returns_iff {partitions : List Partition} {kernelParams : Str}
    {zfsRootDataset : Option Str} :
    (∃ result, getKernelParams partitions kernelParams zfsRootDataset = .ok result) ↔
      LuksUuidsSet zfsRootDataset partitions :=
  getKernelParams_ok_iff_kernelLoop.trans kernelLoop_returns_iff

/-- The root of LUKS on LVM, of which only the mapper name is known. -/
theorem getKernelParams_luksOnLvm :
    getKernelParams [{ Partition.empty with
      fstype := lit "ext4", mountpoint := ['/'], uuidStr := lit "6bdb3301",
      device := lit "/dev/mapper/cryptroot", luksMapperName := some (lit "cryptroot") }]
      (lit "quiet splash") none = .error .emptyOptional := by
  rfl

/-! ## The loop over a list with one root -/

/-- The parameters that resume from a swap partition. -/
def resumeFrom (swap : Partition) : List Str :=
  match swap.luksMapperName with
  | none => if swap.uuidStr = [] then [] else [lit "resume=UUID=" ++ swap.uuidStr]
  | some luksMapperName =>
    if luksMapperName = [] then [] else [lit "resume=/dev/mapper/" ++ luksMapperName]

/-- The partitions of type linuxswap. -/
def swaps (partitions : List Partition) : List Partition :=
  partitions.filter fun p => p.fstype = lit "linuxswap"

section Loop

variable {zfsRootDataset : Option Str} {state : KernelState} {partitions : List Partition}

/-- The variables after the swap settings of a list with at most one swap partition. -/
theorem resumeParams_foldl_swapSettings (hswaps : (swaps partitions).length ≤ 1)
    (hUuid : state.swapUuid = none) (hName : state.swapMappername = none) :
    resumeParams (partitions.foldl swapSettings state) =
      (swaps partitions).flatMap resumeFrom := by
  have hfold : ∀ l state, l.foldl swapSettings state = (swaps l).foldl swapSettings state := by
    intro l state
    rw [swaps, List.foldl_filter]
    congr 1
    funext state part
    by_cases hs : part.fstype = lit "linuxswap" <;> simp [swapSettings, hs]
  rw [hfold]
  rcases hlist : swaps partitions with _ | ⟨swap, _ | ⟨swap', rest⟩⟩
  · simp [resumeParams, hUuid, hName]
  · have hs : swap.fstype = lit "linuxswap" := by
      have hmem : swap ∈ swaps partitions := by rw [hlist]; exact List.mem_singleton_self swap
      simpa [swaps] using (List.mem_filter.mp hmem).2
    rw [List.foldl_cons, List.foldl_nil, List.flatMap_singleton, swapSettings_eq, resumeFrom,
      resumeParams]
    rcases hname : swap.luksMapperName with _ | name
    · by_cases hempty : swap.uuidStr = [] <;> simp [hs, hName, hempty]
    · by_cases hempty : name = [] <;> simp [hs, hUuid, hempty]
  · simp [hlist] at hswaps

end Loop

/-! ## The parameters -/

/-- At most one root and at most one swap partition; a root with a mapper name has a LUKS UUID. -/
structure OneRootOneSwap (partitions : List Partition) : Prop where
  roots : (roots partitions).length ≤ 1
  swaps : (swaps partitions).length ≤ 1
  luks : ∀ root ∈ partitions, root.mountpoint = ['/'] →
    root.luksMapperName ≠ none → root.luksUuid ≠ none

/-- **The parameters of a list with at most one root and one swap partition** depend on these two
only. -/
theorem getKernelParams_eq {partitions : List Partition} {kernelParams : Str}
    {zfsRootDataset : Option Str} (h : OneRootOneSwap partitions) :
    getKernelParams partitions kernelParams zfsRootDataset =
      .ok ((roots partitions).head?.bind fun root =>
        if (isRootOnZfs root = true ∧ zfsRootDataset = none) ∨ root.uuidStr = [] then none
        else some (givenParams kernelParams ++ (rootFsParams zfsRootDataset root ++
          rootParams root ++ (swaps partitions).flatMap resumeFrom))) := by
  have hresume := @resumeParams_foldl_swapSettings ⟨givenParams kernelParams, [], none, none, none⟩
    partitions h.swaps rfl rfl
  have hsame := sameRoot_foldl partitions ⟨givenParams kernelParams, [], none, none, none⟩
  rw [getKernelParams]
  rcases hlist : roots partitions with _ | ⟨root, _ | ⟨root', rest⟩⟩
  · rw [kernelLoop_of_roots_nil hlist]
    simp [bind, Except.bind, pure, Except.pure, hsame.rootUuid]
  · obtain ⟨hmem, hm⟩ : root ∈ partitions ∧ root.mountpoint = ['/'] := by
      have hroot : root ∈ roots partitions := by rw [hlist]; exact List.mem_singleton_self root
      simpa [roots] using hroot
    rw [kernelLoop_of_root hlist, kernelRootStep_eq hm (h.luks root hmem hm), List.head?_cons,
      Option.bind_some]
    by_cases hzfs : isRootOnZfs root = true ∧ zfsRootDataset = none
    · rw [if_pos hzfs, if_pos (Or.inl hzfs)]
      rfl
    by_cases huuid : root.uuidStr = []
    · rw [if_neg hzfs, if_pos (Or.inr huuid)]
      simp [bind, Except.bind, pure, Except.pure, huuid]
    have hgoes : ¬ ((isRootOnZfs root = true ∧ zfsRootDataset = none) ∨ root.uuidStr = []) :=
      not_or.mpr ⟨hzfs, huuid⟩
    rw [if_neg hzfs, if_neg hgoes, ← hresume]
    simp only [bind, Except.bind, pure, Except.pure, hsame.kernelParamsList,
      hsame.cryptdeviceParams, List.isEmpty_eq_false_iff.mpr huuid, Bool.false_eq_true, if_false]
    rcases hname : root.luksMapperName with _ | name
    · simp [rootParams, hname, resumeParams]
    · obtain ⟨uuid, hluks⟩ := Option.ne_none_iff_exists'.mp (h.luks root hmem hm (by simp [hname]))
      simp [rootParams, cryptdeviceParams, hname, hluks, resumeParams]
  · exact absurd h.roots (by simp [hlist])

/-- The root has a mapper name. -/
def RootOnMapper (partitions : List Partition) : Prop :=
  ∃ root ∈ roots partitions, root.luksMapperName ≠ none

/-- **What the parameters are**: the words that are given, `rw`, and parameters of which one resumes
from swap if it has a UUID, or a mapper name when encrypted, and which name an encrypted root iff
it has a mapper name. -/
def ParamsFollow (partitions : List Partition) (kernelParams : Str) (params : List Str) : Prop :=
  ∃ added, params = ((kernelParams.splitOn ' ').filter fun word => word ≠ []) ++ lit "rw" :: added ∧
    added.countP (startsWith · (lit "resume=")) =
      ((swaps partitions).filter fun swap => swap.luksMapperName.getD swap.uuidStr ≠ []).length ∧
    ((∃ param ∈ added, startsWith param (lit "cryptdevice=") = true) ↔ RootOnMapper partitions) ∧
    ((∃ param ∈ added, startsWith param (lit "root=/dev/mapper/") = true) ↔
      RootOnMapper partitions)

theorem OneRootOneSwap.perm {partitions partitions' : List Partition}
    (h : OneRootOneSwap partitions) (hperm : partitions'.Perm partitions) :
    OneRootOneSwap partitions' :=
  ⟨(hperm.filter _).length_eq.trans_le h.roots, (hperm.filter _).length_eq.trans_le h.swaps,
    fun root hroot => h.luks root (hperm.subset hroot)⟩

theorem eq_of_perm_of_length_le_one {l l' : List Partition} (hperm : l'.Perm l)
    (h : l.length ≤ 1) : l' = l := by
  rcases l with _ | ⟨part, _ | ⟨part', rest⟩⟩
  · exact hperm.eq_nil
  · exact List.perm_singleton.mp hperm
  · simp at h

theorem getKernelParams_perm {partitions partitions' : List Partition} {kernelParams : Str}
    {zfsRootDataset : Option Str} (h : OneRootOneSwap partitions)
    (hperm : partitions'.Perm partitions) :
    getKernelParams partitions' kernelParams zfsRootDataset =
      getKernelParams partitions kernelParams zfsRootDataset := by
  have hroots : roots partitions' = roots partitions :=
    eq_of_perm_of_length_le_one (hperm.filter _) h.roots
  have hswaps : swaps partitions' = swaps partitions :=
    eq_of_perm_of_length_le_one (hperm.filter _) h.swaps
  rw [getKernelParams_eq (h.perm hperm), getKernelParams_eq h, hroots, hswaps]

/-- One parameter resumes from each swap partition that has a name. -/
theorem countP_resumeFrom (swaps : List Partition) :
    (swaps.flatMap resumeFrom).countP (startsWith · (lit "resume=")) =
      (swaps.filter fun swap => swap.luksMapperName.getD swap.uuidStr ≠ []).length := by
  induction swaps with
  | nil => rfl
  | cons swap swaps ih =>
    rw [List.flatMap_cons, List.countP_append, ih, List.filter_cons, resumeFrom]
    rcases swap.luksMapperName with _ | name
    · by_cases hempty : swap.uuidStr = [] <;> simp [hempty, lit_eq, startsWith, Nat.add_comm]
    · by_cases hempty : name = [] <;> simp [hempty, lit_eq, startsWith, Nat.add_comm]

/-- A parameter of the file system of the root. -/
theorem eq_of_mem_rootFsParams {zfsRootDataset : Option Str} {root : Partition} {param : Str}
    (h : param ∈ rootFsParams zfsRootDataset root) :
    ∃ rest, param = lit "root=ZFS=" ++ rest ∨ param = lit "rootflags=subvol=" ++ rest := by
  rw [rootFsParams, rootflags] at h
  split_ifs at h
  · exact ⟨_, Or.inl (List.mem_singleton.mp h)⟩
  · rcases hsub : root.subvolume with _ | subvolume
    · simp [hsub] at h
    · exact ⟨subvolume, Or.inr (by simpa [hsub] using h)⟩
  · cases h

/-- A parameter that resumes from one of some swap partitions. -/
theorem eq_of_mem_resumeFrom {swaps : List Partition} {param : Str}
    (h : param ∈ swaps.flatMap resumeFrom) :
    ∃ rest, param = lit "resume=UUID=" ++ rest ∨ param = lit "resume=/dev/mapper/" ++ rest := by
  obtain ⟨swap, -, h⟩ := List.mem_flatMap.mp h
  rw [resumeFrom] at h
  rcases hname : swap.luksMapperName with _ | name
  · by_cases hempty : swap.uuidStr = []
    · simp [hname, hempty] at h
    · exact ⟨swap.uuidStr, Or.inl (by simpa [hname, hempty] using h)⟩
  · by_cases hempty : name = []
    · simp [hname, hempty] at h
    · exact ⟨name, Or.inr (by simpa [hname, hempty] using h)⟩

/-- The parameters that name the root start with `cryptdevice=` and `root=/dev/mapper/` if it has a
mapper name, and with neither otherwise. -/
theorem startsWith_rootParams {root : Partition}
    (hluks : root.luksMapperName ≠ none → root.luksUuid ≠ none) :
    (rootParams root).countP (startsWith · (lit "resume=")) = 0 ∧
      ((∃ param ∈ rootParams root, startsWith param (lit "cryptdevice=") = true) ↔
        root.luksMapperName ≠ none) ∧
      ((∃ param ∈ rootParams root, startsWith param (lit "root=/dev/mapper/") = true) ↔
        root.luksMapperName ≠ none) := by
  rw [rootParams, cryptdeviceParams]
  rcases hname : root.luksMapperName with _ | name
  · simp [lit_eq, startsWith]
  · obtain ⟨uuid, huuid⟩ := Option.ne_none_iff_exists'.mp (hluks (by simp [hname]))
    simp [huuid, lit_eq, startsWith]

theorem paramsFollow {partitions : List Partition} {kernelParams : Str}
    {zfsRootDataset : Option Str} (h : OneRootOneSwap partitions) {root : Partition}
    (hroots : roots partitions = [root]) :
    ParamsFollow partitions kernelParams (givenParams kernelParams ++
      (rootFsParams zfsRootDataset root ++ rootParams root ++
        (swaps partitions).flatMap resumeFrom)) := by
  have hroot : root ∈ partitions ∧ root.mountpoint = ['/'] := by
    have hmem : root ∈ roots partitions := by rw [hroots]; exact List.mem_singleton_self root
    simpa [roots] using hmem
  obtain ⟨hresume, hcrypt, hmapper⟩ := startsWith_rootParams (h.luks root hroot.1 hroot.2)
  have hon : RootOnMapper partitions ↔ root.luksMapperName ≠ none := by
    simp [RootOnMapper, hroots]
  have honly : ∀ start, (∀ rest, startsWith (lit "root=ZFS=" ++ rest) start ≠ true) →
      (∀ rest, startsWith (lit "rootflags=subvol=" ++ rest) start ≠ true) →
      (∀ rest, startsWith (lit "resume=UUID=" ++ rest) start ≠ true) →
      (∀ rest, startsWith (lit "resume=/dev/mapper/" ++ rest) start ≠ true) →
      ((∃ param ∈ rootFsParams zfsRootDataset root ++ rootParams root ++
          (swaps partitions).flatMap resumeFrom, startsWith param start = true) ↔
        ∃ param ∈ rootParams root, startsWith param start = true) := by
    intro start hzfs hflags huuid hname
    constructor
    · rintro ⟨param, hparam, hstart⟩
      rcases List.mem_append.mp hparam with hparam | hparam
      · rcases List.mem_append.mp hparam with hparam | hparam
        · obtain ⟨rest, rfl | rfl⟩ := eq_of_mem_rootFsParams hparam
          · exact absurd hstart (hzfs rest)
          · exact absurd hstart (hflags rest)
        · exact ⟨param, hparam, hstart⟩
      · obtain ⟨rest, rfl | rfl⟩ := eq_of_mem_resumeFrom hparam
        · exact absurd hstart (huuid rest)
        · exact absurd hstart (hname rest)
    · rintro ⟨param, hparam, hstart⟩
      exact ⟨param, by simp [hparam], hstart⟩
  have hfs : (rootFsParams zfsRootDataset root).countP (startsWith · (lit "resume=")) = 0 := by
    rw [List.countP_eq_zero]
    intro param hparam
    obtain ⟨rest, rfl | rfl⟩ := eq_of_mem_rootFsParams hparam <;> simp [lit_eq, startsWith]
  refine ⟨rootFsParams zfsRootDataset root ++ rootParams root ++
    (swaps partitions).flatMap resumeFrom, ?_, ?_, ?_, ?_⟩
  · rw [givenParams, makeMultiline, if_neg (by simp), makeSplitView_eq, List.append_assoc]
    rfl
  · rw [List.countP_append, List.countP_append, hfs, hresume, countP_resumeFrom, Nat.zero_add]
  · rw [hon, ← hcrypt]
    refine honly _ ?_ ?_ ?_ ?_ <;> intro rest <;> simp [lit_eq, startsWith]
  · rw [hon, ← hmapper]
    refine honly _ ?_ ?_ ?_ ?_ <;> intro rest <;> simp [lit_eq, startsWith]

/-- **The order of the partitions does not matter**, and what the parameters are. -/
theorem getKernelParams_of_oneRootOneSwap {partitions : List Partition} {kernelParams : Str}
    {zfsRootDataset : Option Str} (h : OneRootOneSwap partitions) :
    (∀ partitions', partitions'.Perm partitions →
      getKernelParams partitions' kernelParams zfsRootDataset =
        getKernelParams partitions kernelParams zfsRootDataset) ∧
      ∃ result, getKernelParams partitions kernelParams zfsRootDataset = .ok result ∧
        ∀ params, result = some params → ParamsFollow partitions kernelParams params := by
  refine ⟨fun partitions' => getKernelParams_perm h, _, getKernelParams_eq h, ?_⟩
  intro params hparams
  rcases hroots : roots partitions with _ | ⟨root, _ | ⟨root', rest⟩⟩
  · simp [hroots] at hparams
  · rw [hroots, List.head?_cons, Option.bind_some] at hparams
    split_ifs at hparams
    obtain rfl := Option.some.inj hparams
    exact paramsFollow h hroots
  · exact absurd h.roots (by simp [hroots])

/-- A root and a swap partition, both encrypted. -/
def luksRootAndSwap : List Partition :=
  [{ Partition.empty with
      fstype := lit "xfs", mountpoint := ['/'], uuidStr := lit "6bdb3301",
      luksMapperName := some (lit "luks_device"), luksUuid := some (lit "00e1b836") },
    { Partition.empty with
      fstype := lit "linuxswap", luksMapperName := some (lit "luks_swap_device"),
      luksUuid := some (lit "59848b1b") }]

theorem getKernelParams_luksRootAndSwap :
    (∀ partitions', partitions'.Perm luksRootAndSwap →
      getKernelParams partitions' (lit "quiet splash") none =
        getKernelParams luksRootAndSwap (lit "quiet splash") none) ∧
      ∃ result, getKernelParams luksRootAndSwap (lit "quiet splash") none = .ok result ∧
        ∀ params, result = some params →
          ParamsFollow luksRootAndSwap (lit "quiet splash") params :=
  getKernelParams_of_oneRootOneSwap
    ⟨by simp [roots, luksRootAndSwap, Partition.empty],
      by simp [swaps, luksRootAndSwap, Partition.empty, lit_eq],
      by simp [luksRootAndSwap, Partition.empty]⟩

/-- A root and no swap partition. -/
def rootAlone : List Partition :=
  [{ Partition.empty with
    fstype := lit "xfs", mountpoint := ['/'], uuidStr := lit "6bdb3301" }]

/-- The words that are given may resume from swap themselves, without a swap partition. -/
theorem getKernelParams_givenResume :
    OneRootOneSwap rootAlone ∧ swaps rootAlone = [] ∧
      ∃ params, getKernelParams rootAlone (lit "quiet resume=/dev/sda3") none = .ok (some params) ∧
        params.countP (startsWith · (lit "resume=")) = 1 :=
  ⟨⟨by simp [roots, rootAlone, Partition.empty], by simp [swaps, rootAlone, Partition.empty, lit_eq],
      by simp [rootAlone, Partition.empty]⟩,
    by simp [swaps, rootAlone, Partition.empty, lit_eq],
    [lit "quiet", lit "resume=/dev/sda3", lit "rw", lit "root=UUID=6bdb3301"],
    by decide +kernel, by decide +kernel⟩

end CliInstaller
