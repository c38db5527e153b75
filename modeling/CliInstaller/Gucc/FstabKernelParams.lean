import Mathlib.Data.List.TakeWhile
import CliInstaller.Gucc.KernelParams

/-!
# fstab and the kernel command line

Both name the root device and its subvolume. The device is the same; a subvolume is written to
the command line whenever it is set on a partition of type "btrfs", and to fstab only when it is
not empty, on a partition whose type is btrfs up to case. The command line begins with the words that are
given, which may name another root.

## Main definitions

* `RootAgrees`: the root entry of fstab and the parameters agree on the device and the subvolume
* `GivenRoot`, `SubvolAgrees`: the conditions on the words that are given and the root partition

## Main results

* `mem_rootParams_iff`, `mem_rootflags_iff`: the parameters that name the root
* `firstOption_getMountOptions`: the option that names the subvolume in fstab
* `rootAgrees_iff`: when fstab and the command line agree about the root
-/

namespace CliInstaller

/-- The first of a list of options. -/
def firstOption (options : Str) : Str := options.takeWhile fun c => c ≠ ','

/-- There is one entry for `/`; the value of `root=` is its device field; and
`rootflags=subvol=X` is present iff its options start with `subvol=X`, for a non-empty `X`. -/
def RootAgrees (partitions : List Partition) (params : List Str) : Prop :=
  ∃ entry, ((partitions.filterMap fstabLine).filter fun e => e.dir = ['/']) = [entry] ∧
    (∀ v, lit "root=" ++ v ∈ params ↔ v = entry.device) ∧
    ∀ X, lit "rootflags=subvol=" ++ X ∈ params ↔
      X ≠ [] ∧ firstOption entry.options = lit "subvol=" ++ X

/-- A `root=` among the words that are given names the root partition. -/
def GivenRoot (kernelParams : Str) (root : Partition) : Prop :=
  ∀ v, lit "root=" ++ v ∈ makeMultiline kernelParams false ' ' →
    v = match root.luksMapperName with
      | some luksMapperName => lit "/dev/mapper/" ++ luksMapperName
      | none => lit "UUID=" ++ root.uuidStr

/-- The words that are given name a subvolume. -/
def GivenSubvol (kernelParams X : Str) : Prop :=
  lit "rootflags=subvol=" ++ X ∈ makeMultiline kernelParams false ' '

/-- On type "btrfs" a subvolume that is set is not empty and holds no comma, and the words that are given
name no other. Where none is written to the command line, the words that are given name the non-empty
ones that fstab names, and no others: the subvolume up to its first comma, if it is not empty and the type
is btrfs up to case, else the one that the mount options start with. -/
def SubvolAgrees (kernelParams : Str) (root : Partition) : Prop :=
  if root.fstype = lit "btrfs" ∧ root.subvolume.isSome then
    ∀ subvolume, root.subvolume = some subvolume →
      (subvolume ≠ [] ∧ ',' ∉ subvolume) ∧ ∀ X, GivenSubvol kernelParams X → X = subvolume
  else
    ∀ X, GivenSubvol kernelParams X ↔ X ≠ [] ∧
      if getConvertedFs root.fstype = lit "btrfs" ∧ root.subvolume.getD [] ≠ [] then
        X = firstOption (root.subvolume.getD [])
      else firstOption root.mountOpts = lit "subvol=" ++ X

section Params

variable {root : Partition} {kernelParams : Str} {resume : List Str}

/-- The value of `root=` among the parameters. -/
theorem mem_rootParams_iff (hresume : ∀ param ∈ resume, startsWith param (lit "resume=") = true)
    (huuid : root.uuidStr ≠ []) (hluks : root.luksMapperName ≠ none → root.luksUuid ≠ none)
    (v : Str) :
    lit "root=" ++ v ∈ givenParams kernelParams ++ (rootflags root ++ rootParams root ++ resume) ↔
      lit "root=" ++ v ∈ makeMultiline kernelParams false ' ' ∨ v = fstabDevice root := by
  have hrw : lit "root=" ++ v ≠ lit "rw" := by simp [lit_eq]
  have hflags : lit "root=" ++ v ∉ rootflags root := by
    rw [rootflags]
    split
    · split <;> simp [lit_eq]
    · exact List.not_mem_nil
  have hres : lit "root=" ++ v ∉ resume := by
    intro h
    have := hresume _ h
    simp [lit_eq, startsWith] at this
  have hroot : lit "root=" ++ v ∈ rootParams root ↔ v = fstabDevice root := by
    rcases hname : root.luksMapperName with _ | name
    · simp [rootParams, fstabDevice, hname, huuid, lit_eq]
    · obtain ⟨uuid, hluksUuid⟩ := Option.ne_none_iff_exists'.mp (hluks (by simp [hname]))
      simp [rootParams, cryptdeviceParams, fstabDevice, hname, hluksUuid, lit_eq]
  simp only [givenParams, List.mem_append, List.mem_singleton, hrw, hflags, hres, hroot, false_or,
    or_false]

/-- The flags among the parameters. -/
theorem mem_rootflags_iff (hresume : ∀ param ∈ resume, startsWith param (lit "resume=") = true)
    (X : Str) :
    lit "rootflags=subvol=" ++ X ∈
        givenParams kernelParams ++ (rootflags root ++ rootParams root ++ resume) ↔
      GivenSubvol kernelParams X ∨ root.fstype = lit "btrfs" ∧ root.subvolume = some X := by
  have hrw : lit "rootflags=subvol=" ++ X ≠ lit "rw" := by simp [lit_eq]
  have hparams : lit "rootflags=subvol=" ++ X ∉ rootParams root := by
    rw [rootParams, cryptdeviceParams]
    split
    · split <;> simp [lit_eq]
    · simp [lit_eq]
  have hres : lit "rootflags=subvol=" ++ X ∉ resume := by
    intro h
    have := hresume _ h
    simp [lit_eq, startsWith] at this
  have hflags : lit "rootflags=subvol=" ++ X ∈ rootflags root ↔
      root.fstype = lit "btrfs" ∧ root.subvolume = some X := by
    rw [rootflags]
    split_ifs with hb
    · rcases root.subvolume with _ | subvolume <;> simp [hb, eq_comm]
    · simp [hb]
  simp only [givenParams, GivenSubvol, List.mem_append, List.mem_singleton, hrw, hparams, hres, hflags,
    or_false]

end Params

/-! ## The options of fstab -/

theorem firstOption_append_comma (option options : Str) :
    firstOption (option ++ ',' :: options) = firstOption option := by
  rw [firstOption, List.takeWhile_append, firstOption]
  split_ifs with h
  · rw [(List.takeWhile_prefix _).eq_of_length h]
    simp
  · rfl

/-- The first option names the subvolume up to its first comma. -/
theorem firstOption_getMountOptions (mountOpts subvolume fstype : Str) :
    firstOption (getMountOptions mountOpts subvolume fstype) =
      if fstype = lit "btrfs" ∧ subvolume ≠ [] then lit "subvol=" ++ firstOption subvolume
      else firstOption mountOpts := by
  have hsubvol : ∀ c ∈ lit "subvol=", decide (c ≠ ',') = true := by simp [lit_eq]
  by_cases h : fstype = lit "btrfs" ∧ subvolume ≠ []
  · rw [if_pos h, getMountOptions, if_pos (by simpa using h), List.append_assoc,
      List.singleton_append, firstOption_append_comma, firstOption,
      List.takeWhile_append_of_pos hsubvol, firstOption]
  · rw [if_neg h, getMountOptions, if_neg (by simpa using h)]

theorem firstOption_eq_self {option : Str} : firstOption option = option ↔ ',' ∉ option := by
  rw [firstOption, List.takeWhile_eq_self_iff]
  simp only [ne_eq, decide_eq_true_eq]
  exact ⟨fun h hc => h _ hc rfl, fun h c hc heq => h (heq ▸ hc)⟩

/-- The flags are those for the option of fstab exactly under the condition. -/
theorem subvolAgrees_iff (kernelParams : Str) (root : Partition) :
    (∀ X, (GivenSubvol kernelParams X ∨ root.fstype = lit "btrfs" ∧ root.subvolume = some X) ↔
        X ≠ [] ∧ firstOption (getMountOptions root.mountOpts (root.subvolume.getD [])
          (getConvertedFs root.fstype)) = lit "subvol=" ++ X) ↔
      SubvolAgrees kernelParams root := by
  have hbtrfs : getConvertedFs (lit "btrfs") = lit "btrfs" := by decide +kernel
  simp only [firstOption_getMountOptions, SubvolAgrees]
  by_cases hset : root.fstype = lit "btrfs" ∧ root.subvolume.isSome = true
  -- The flag is there for any subvolume that is set, the option only for one that is not empty.
  · rw [if_pos hset]
    obtain ⟨hfs, hsome⟩ := hset
    obtain ⟨subvolume, hsubvolume⟩ := Option.isSome_iff_exists.mp hsome
    rw [hfs, hbtrfs, hsubvolume, Option.getD_some]
    simp only [true_and, Option.some.injEq]
    constructor
    · rintro h _ rfl
      obtain ⟨hne, hfirst⟩ := (h subvolume).mp (.inr rfl)
      rw [if_pos hne, List.append_cancel_left_eq] at hfirst
      refine ⟨⟨hne, firstOption_eq_self.mp hfirst⟩, fun X hX => ?_⟩
      obtain ⟨-, hX⟩ := (h X).mp (.inl hX)
      rw [if_pos hne, List.append_cancel_left_eq, hfirst] at hX
      exact hX.symm
    · intro h X
      obtain ⟨⟨hne, hcomma⟩, hgiven⟩ := h subvolume rfl
      rw [if_pos hne, List.append_cancel_left_eq, firstOption_eq_self.mpr hcomma]
      constructor
      · rintro (hX | rfl)
        · obtain rfl := hgiven X hX
          exact ⟨hne, rfl⟩
        · exact ⟨hne, rfl⟩
      · exact fun hX => .inr hX.2
  · have hnone : ∀ X, ¬ (root.fstype = lit "btrfs" ∧ root.subvolume = some X) :=
      fun X h => hset ⟨h.1, by rw [h.2]; rfl⟩
    rw [if_neg hset]
    refine forall_congr' fun X => iff_congr (or_iff_left (hnone X)) (and_congr_right fun _ => ?_)
    split_ifs
    · rw [List.append_cancel_left_eq, eq_comm]
    · rfl

/-! ## The root -/

section Agree

variable {partitions : List Partition} {root : Partition} {kernelParams : Str}
  {zfsRootDataset : Option Str} {params : List Str}

/-- The entries for `/` are those of the partitions mounted there. -/
theorem filter_fstabLine (partitions : List Partition) :
    ((partitions.filterMap fstabLine).filter fun e => e.dir = ['/']) =
      (partitions.filter fun p => p.mountpoint = ['/']).filterMap fstabLine := by
  rw [List.filter_filterMap, List.filterMap_filter]
  apply List.filterMap_congr
  intro p _
  rcases hline : fstabLine p with _ | entry
  · simp
  · obtain ⟨-, rfl⟩ := fstabLine_eq_some_iff.mp hline
    by_cases hm : p.mountpoint = ['/'] <;> simp [hm, Option.filter]

/-- The words that are given agree on the device. -/
theorem givenRoot_iff (huuid : root.uuidStr ≠ []) :
    (∀ v, (lit "root=" ++ v ∈ makeMultiline kernelParams false ' ' ∨ v = fstabDevice root) ↔
        v = fstabDevice root) ↔ GivenRoot kernelParams root := by
  have hdevice : fstabDevice root = match root.luksMapperName with
      | some luksMapperName => lit "/dev/mapper/" ++ luksMapperName
      | none => lit "UUID=" ++ root.uuidStr := by
    rw [fstabDevice]
    rcases root.luksMapperName with _ | name
    · simp [huuid]
    · rfl
  rw [GivenRoot, ← hdevice]
  exact forall_congr' fun v => or_iff_right_iff_imp

/-- **When fstab and the command line agree about the root**: the text of fstab is its header and
these entries. -/
theorem rootAgrees_iff (hroot : (partitions.filter fun p => p.mountpoint = ['/']) = [root])
    (hzfs : root.fstype ≠ lit "zfs")
    (hok : getKernelParams partitions kernelParams zfsRootDataset = .ok (some params)) :
    generateFstabContent partitions =
        fstabHeader ++ (partitions.filterMap fstabLine).flatMap FstabEntry.text ∧
      (RootAgrees partitions params ↔
        getConvertedFs root.fstype ≠ lit "swap" ∧ GivenRoot kernelParams root ∧
          SubvolAgrees kernelParams root) := by
  refine ⟨generateFstabContent_eq partitions, ?_⟩
  obtain ⟨huuid, hluks, resume, hresume, rfl⟩ := getKernelParams_spec hroot hzfs hok
  rw [RootAgrees, filter_fstabLine, hroot]
  simp only [mem_rootParams_iff hresume huuid hluks, mem_rootflags_iff hresume]
  rcases hline : fstabLine root with _ | entry
  · have hswap : getConvertedFs root.fstype = lit "swap" := by
      by_contra h
      rw [fstabLine_eq_some_iff.mpr ⟨⟨hzfs, h⟩, rfl⟩] at hline
      simp at hline
    simp [hline, hswap]
  · obtain ⟨⟨-, hswap⟩, hentry⟩ := fstabLine_eq_some_iff.mp hline
    rw [and_iff_right hswap, ← subvolAgrees_iff, ← givenRoot_iff huuid]
    simp [hline, hentry]

end Agree

/-- A btrfs root on a subvolume. -/
def btrfsRoot (subvolume : Str) : Partition :=
  { Partition.empty with
    fstype := lit "btrfs", mountpoint := ['/'], uuidStr := lit "6bdb3301",
    device := lit "/dev/sda2", mountOpts := lit "defaults,noatime", subvolume := some subvolume }

/-- The empty subvolume name is a flag on the command line, and no option in fstab. -/
theorem rootAgrees_emptySubvolume :
    getKernelParams [btrfsRoot []] (lit "quiet") none =
        .ok (some [lit "quiet", lit "rw", lit "rootflags=subvol=", lit "root=UUID=6bdb3301"]) ∧
      ¬ RootAgrees [btrfsRoot []]
        [lit "quiet", lit "rw", lit "rootflags=subvol=", lit "root=UUID=6bdb3301"] := by
  refine ⟨by decide +kernel, ?_⟩
  rintro ⟨entry, -, -, hflags⟩
  have hempty := (hflags []).mp (by decide +kernel)
  exact hempty.1 rfl

theorem rootAgrees_subvolume :
    RootAgrees [btrfsRoot (lit "/@")]
      [lit "quiet", lit "rw", lit "rootflags=subvol=/@", lit "root=UUID=6bdb3301"] := by
  have hok : getKernelParams [btrfsRoot (lit "/@")] (lit "quiet") none = .ok
      (some [lit "quiet", lit "rw", lit "rootflags=subvol=/@", lit "root=UUID=6bdb3301"]) := by
    decide +kernel
  have hroot : ([btrfsRoot (lit "/@")].filter fun p => p.mountpoint = ['/']) =
      [btrfsRoot (lit "/@")] := by decide +kernel
  have hwords : makeMultiline (lit "quiet") false ' ' = [lit "quiet"] := by decide +kernel
  refine (rootAgrees_iff hroot (by decide +kernel) hok).2.mpr ⟨by decide +kernel, ?_, ?_⟩
  · intro v hv
    rw [hwords, List.mem_singleton] at hv
    exact absurd hv (by simp [lit_eq])
  · rw [SubvolAgrees, if_pos (by decide +kernel)]
    rintro subvolume ⟨⟩
    refine ⟨by decide +kernel, fun X hX => ?_⟩
    rw [GivenSubvol, hwords, List.mem_singleton] at hX
    exact absurd hX (by simp [lit_eq])

end CliInstaller
