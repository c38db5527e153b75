import CliInstaller.Gucc.Btrfs
import CliInstaller.Gucc.Partitioning

/-!
# Subvolumes and the partition table

A clone of the root has no size, and comes after everything that has one; it is merged with the
root only if nothing on another device comes between. A newline in a size makes one more line.

## Main definitions

* `TableKept`: the commands have one line for each device, with its size
* `RootSmallest`: the roots that are cloned are smaller than what is on other devices

## Main results

* `merged_of_run`: clones of a smallest partition are merged with it
* `exists_not_nodup`: otherwise some result of the sort keeps a device twice
* `tableKept_iff`: when adding subvolumes keeps the partition table
-/

namespace CliInstaller

open Sorting

/-- The lines of the commands are the label and the lines of partitions of the list with the subvolumes:
one for each partition that was there before, on its device and with its size. -/
def TableKept (isEfi : Bool) (partitions result : List Partition) (sfdiskCommands : Str) : Prop :=
  ∃ parts : List Partition,
    lines sfdiskCommands = sfdiskLabel isEfi :: parts.map partitionLine ++ [[]] ∧
      parts ⊆ result ∧ (parts.map deviceSize).Perm (partitions.map deviceSize)

/-- Whenever a root is cloned, the partitions on other devices have greater sizes, as strings. -/
def RootSmallest (partitions : List Partition) (subvols : List BtrfsSubvolume) : Prop :=
  ∀ root ∈ clonedRoots subvols partitions, ∀ part ∈ partitions, part.device ≠ root.device →
    root.size < part.size

section Merge

variable {sorted others clones : List Partition} {root : Partition}

/-- **Clones of a smallest partition are merged with it.** -/
theorem merged_of_run (hsorted : sorted.Pairwise fun a b => b.size ≤ a.size)
    (hperm : sorted.Perm (root :: (others ++ clones)))
    (hothers : ∀ part ∈ others, part.device ≠ root.device ∧ root.size < part.size)
    (hclones : ∀ part ∈ clones, part.device = root.device ∧ part.size = [])
    (hnodup : (others.map Partition.device).Nodup) :
    ((uniqueBy Partition.device sorted).map deviceSize).Perm ((root :: others).map deviceSize) := by
  set P : Partition → Bool := fun part => part.device = root.device with hP
  have hsize : ∀ part ∈ sorted, (P part = true → part.size ≤ root.size) ∧
      (P part = false → root.size < part.size) := by
    intro part hpart
    rcases List.mem_cons.mp (hperm.subset hpart) with rfl | hpart
    · simp [hP]
    · rcases List.mem_append.mp hpart with hpart | hpart
      · simp [hP, hothers part hpart]
      · obtain ⟨hd, hs⟩ := hclones part hpart
        simp only [hP, hd, hs, decide_true, true_imp_iff, Bool.true_eq_false, false_imp_iff,
          and_true]
        exact nil_le _
  have hlast : sorted.Pairwise fun a b => P a = true → P b = true := by
    refine hsorted.imp_of_mem fun {a b} ha hb hab hPa => ?_
    by_contra hPb
    rw [Bool.not_eq_true] at hPb
    exact absurd (((hsize b hb).2 hPb).trans_le hab) (not_lt_of_ge ((hsize a ha).1 hPa))
  have hA : (sorted.filter fun a => !P a).Perm others := by
    refine (hperm.filter _).trans (List.Perm.of_eq ?_)
    rw [List.filter_cons_of_neg (by simp [hP]), List.filter_append,
      List.filter_eq_self.mpr fun part hpart => by simp [hP, hothers part hpart],
      List.filter_eq_nil_iff.mpr fun part hpart => by simp [hP, hclones part hpart],
      List.append_nil]
  have hroot : root ∈ sorted.filter P :=
    List.mem_filter.mpr ⟨hperm.symm.subset List.mem_cons_self, by simp [hP]⟩
  obtain ⟨first, run, hrun⟩ := List.exists_cons_of_ne_nil (List.ne_nil_of_mem hroot)
  have hfirst : first ∈ sorted.filter P := hrun ▸ List.mem_cons_self
  obtain ⟨hfirst, hPfirst⟩ := List.mem_filter.mp hfirst
  -- The run starts with the size of the root: the clones have none.
  have hfirstSize : first.size = root.size := by
    refine le_antisymm ((hsize first hfirst).1 hPfirst) ?_
    have hpair := hsorted.sublist (List.filter_sublist (p := P))
    rw [hrun] at hroot hpair
    rcases List.mem_cons.mp hroot with rfl | hroot
    · exact le_rfl
    · exact (List.pairwise_cons.mp hpair).1 root hroot
  have hdevice : ∀ part ∈ sorted.filter P, part.device = root.device := by
    intro part hpart
    simpa [hP] using (List.mem_filter.mp hpart).2
  have hmerged : uniqueBy Partition.device sorted = (sorted.filter fun a => !P a) ++ [first] := by
    conv_lhs => rw [eq_filter_append_filter hlast, hrun]
    apply uniqueBy_append_run
    · intro part hpart
      rw [hdevice first (hrun ▸ List.mem_cons_self),
        hdevice part (hrun ▸ List.mem_cons_of_mem _ hpart)]
    · exact (hA.map Partition.device).nodup_iff.mpr hnodup
    · intro part hpart
      rw [hdevice first (hrun ▸ List.mem_cons_self)]
      exact (hothers part (hA.subset hpart)).1
  have hfirstEq : deviceSize first = deviceSize root := by
    rw [deviceSize, deviceSize, hfirstSize, hdevice first (hrun ▸ List.mem_cons_self)]
  rw [hmerged, List.map_append, List.map_cons, List.map_cons, List.map_nil, hfirstEq]
  exact (List.perm_append_singleton _ _).trans ((hA.map deviceSize).cons _)

end Merge

/-! ## The table -/

section Table

variable {partitions : List Partition} {subvols : List BtrfsSubvolume}

/-- The partitions after adding the subvolumes, up to order. -/
theorem btrfsAppendSubvolumes_spec {S : Sorter Partition} {result : List Partition}
    (hdistinct : DistinctSubvolumes subvols)
    (hok : btrfsAppendSubvolumes S partitions subvols = .ok (true, result)) :
    ∃ parts clones : List Partition, result.Perm (parts ++ clones) ∧
      parts.map deviceSize = partitions.map deviceSize ∧
      clones.map deviceSize = (clonedRoots subvols partitions).map (fun r => (r.device, [])) ∧
      ∀ r ∈ clonedRoots subvols partitions, deviceSize r ∈ partitions.map deviceSize := by
  rw [btrfsAppendSubvolumes] at hok
  split_ifs at hok with hempty hroot
  · rw [List.isEmpty_iff] at hempty
    subst hempty
    obtain rfl := (Prod.mk.inj (Except.ok.inj hok)).2
    exact ⟨partitions, [], by simp, rfl, rfl, by simp [clonedRoots]⟩
  · simp at hok
  · rcases hrun : appendSubvolumes subvols partitions with fault | appended
    · simp [hrun, bind, Except.bind] at hok
    · simp only [hrun, bind, Except.bind, pure, Except.pure] at hok
      obtain rfl := (Prod.mk.inj (Except.ok.inj hok)).2
      obtain ⟨parts, clones, happended, hparts, hclones, hroots⟩ :=
        @appendSubvolumes_spec subvols partitions [] appended hdistinct (by simp)
          (by simpa using hrun)
      rw [List.append_nil] at hclones hroots
      refine ⟨parts, clones, ?_, hparts, hclones, hroots⟩
      rw [happended, List.nil_append]
      exact S.byKey_perm _ _

theorem map_device_of_map_deviceSize {ps qs : List Partition}
    (h : ps.map deviceSize = qs.map deviceSize) :
    ps.map Partition.device = qs.map Partition.device := by
  have hfst := congrArg (List.map Prod.fst) h
  simpa [Function.comp_def, deviceSize] using hfst

theorem RootSmallest.lt (hsmall : RootSmallest partitions subvols) {root : Partition}
    (hroot : root ∈ clonedRoots subvols partitions) {device size : Str}
    (hmem : (device, size) ∈ partitions.map deviceSize) (hne : device ≠ root.device) :
    root.size < size := by
  obtain ⟨part, hpart, heq⟩ := List.mem_map.mp hmem
  obtain ⟨rfl, rfl⟩ := Prod.mk.inj heq
  exact hsmall root hroot part hpart hne

theorem RootSmallest.device_eq (hsmall : RootSmallest partitions subvols)
    (hroots : ∀ r ∈ clonedRoots subvols partitions, deviceSize r ∈ partitions.map deviceSize)
    {r r' : Partition} (hr : r ∈ clonedRoots subvols partitions)
    (hr' : r' ∈ clonedRoots subvols partitions) : r.device = r'.device := by
  by_contra hne
  exact lt_asymm (hsmall.lt hr' (hroots r hr) hne) (hsmall.lt hr (hroots r' hr') (Ne.symm hne))

/-- A smallest root: every sort keeps the partitions as they were. -/
theorem sfdiskFiltered_of_rootSmallest {S S' : Sorter Partition} {result : List Partition}
    (hdevices : (partitions.map Partition.device).Nodup) (hdistinct : DistinctSubvolumes subvols)
    (hok : btrfsAppendSubvolumes S partitions subvols = .ok (true, result))
    (hsmall : RootSmallest partitions subvols) :
    ((sfdiskFiltered S' result).map deviceSize).Perm (partitions.map deviceSize) := by
  obtain ⟨parts, clones, hperm, hparts, hclones, hroots⟩ := btrfsAppendSubvolumes_spec hdistinct hok
  obtain ⟨sorted, hsortedPerm, hsorted, hfiltered⟩ := sfdiskFiltered_eq S' result
  rw [← map_device_of_map_deviceSize hparts] at hdevices
  rw [hfiltered, ← hparts]
  rcases hcloned : clonedRoots subvols partitions with _ | ⟨root, roots⟩
  · rw [hcloned] at hclones
    obtain rfl : clones = [] := by simpa using hclones
    rw [List.append_nil] at hperm
    have hall := hsortedPerm.trans hperm
    rw [uniqueBy_of_nodup ((hall.map Partition.device).nodup_iff.mpr hdevices)]
    exact hall.map deviceSize
  · have hroot : root ∈ clonedRoots subvols partitions := hcloned ▸ List.mem_cons_self
    obtain ⟨part, hpart, hpartRoot⟩ := List.mem_map.mp (hparts ▸ hroots root hroot)
    obtain ⟨hd, hs⟩ := Prod.mk.inj hpartRoot
    have hrest := List.perm_cons_erase hpart
    have hnodup := (hrest.map Partition.device).nodup_iff.mp hdevices
    rw [List.map_cons, List.nodup_cons] at hnodup
    have hothers : ∀ q ∈ parts.erase part, q.device ≠ part.device ∧ part.size < q.size := by
      intro q hq
      have hne : q.device ≠ part.device := fun h => hnodup.1 (h ▸ List.mem_map_of_mem hq)
      have hmem : deviceSize q ∈ partitions.map deviceSize :=
        hparts ▸ List.mem_map_of_mem (List.mem_of_mem_erase hq)
      exact ⟨hne, hs ▸ hsmall.lt hroot hmem (hd ▸ hne)⟩
    have hclone : ∀ c ∈ clones, c.device = part.device ∧ c.size = [] := by
      intro c hc
      have hmem : deviceSize c ∈ clones.map deviceSize := List.mem_map_of_mem hc
      rw [hclones] at hmem
      obtain ⟨r, hr, hrc⟩ := List.mem_map.mp hmem
      obtain ⟨hcd, hcs⟩ := Prod.mk.inj hrc
      exact ⟨by rw [← hcd, hd, hsmall.device_eq hroots hr hroot], hcs.symm⟩
    have hlines : sorted.Perm (part :: (parts.erase part ++ clones)) :=
      (hsortedPerm.trans hperm).trans (hrest.append_right clones)
    exact (merged_of_run hsorted hlines hothers hclone hnodup.2).trans (hrest.symm.map deviceSize)

/-- A root that is not smallest: some sort keeps a device twice. -/
theorem exists_not_nodup {S : Sorter Partition} {result : List Partition}
    (hdistinct : DistinctSubvolumes subvols)
    (hok : btrfsAppendSubvolumes S partitions subvols = .ok (true, result)) {root other : Partition}
    (hroot : root ∈ clonedRoots subvols partitions) (hother : other ∈ partitions)
    (hne : other.device ≠ root.device) (hle : other.size ≤ root.size) :
    ∃ S' : Sorter Partition, ¬ ((sfdiskFiltered S' result).map Partition.device).Nodup := by
  obtain ⟨parts, clones, hperm, hparts, hclones, hroots⟩ := btrfsAppendSubvolumes_spec hdistinct hok
  obtain ⟨part, hpart, hpartRoot⟩ := List.mem_map.mp (hparts ▸ hroots root hroot)
  have hotherMem : deviceSize other ∈ parts.map deviceSize := hparts ▸ List.mem_map_of_mem hother
  obtain ⟨between, hbetween, hbetweenOther⟩ := List.mem_map.mp hotherMem
  have hcloneMem : (root.device, []) ∈ clones.map deviceSize :=
    hclones ▸ List.mem_map_of_mem (f := fun r : Partition => (r.device, [])) hroot
  obtain ⟨clone, hclone, hcloneRoot⟩ := List.mem_map.mp hcloneMem
  obtain ⟨hpd, hps⟩ := Prod.mk.inj hpartRoot
  obtain ⟨hbd, hbs⟩ := Prod.mk.inj hbetweenOther
  obtain ⟨hcd, hcs⟩ := Prod.mk.inj hcloneRoot
  have hdiff : between.device ≠ part.device := by rwa [hbd, hpd]
  have hbetween' : between ∈ parts.erase part :=
    (List.mem_erase_of_ne fun h => hdiff (congrArg Partition.device h)).mpr hbetween
  have hall : result.Perm
      (part :: between :: clone :: ((parts.erase part).erase between ++ clones.erase clone)) := by
    refine hperm.trans (((List.perm_cons_erase hpart).append_right clones).trans ?_)
    refine List.Perm.cons _ (((List.perm_cons_erase hbetween').append_right clones).trans ?_)
    refine List.Perm.cons _ (((List.perm_cons_erase hclone).append_left _).trans ?_)
    exact List.perm_middle
  exact exists_sfdiskFiltered_repeated hall hdiff (hcd.trans hpd.symm) (by rwa [hbs, hps])
    (by rw [hcs]; exact nil_le _)

/-- Every device of the partitions has a partition that is kept. -/
theorem device_mem_sfdiskFiltered {S S' : Sorter Partition} {result : List Partition}
    (hdistinct : DistinctSubvolumes subvols)
    (hok : btrfsAppendSubvolumes S partitions subvols = .ok (true, result)) :
    partitions.map Partition.device ⊆ (sfdiskFiltered S' result).map Partition.device := by
  obtain ⟨parts, clones, hperm, hparts, -, -⟩ := btrfsAppendSubvolumes_spec hdistinct hok
  rw [← map_device_of_map_deviceSize hparts]
  intro device hdevice
  obtain ⟨part, hpart, rfl⟩ := List.mem_map.mp hdevice
  exact sfdiskFiltered_covers S' (hperm.symm.subset (List.mem_append_left _ hpart))

/-- A table that is kept has no more lines than partitions, and no device twice. -/
theorem length_le_of_tableKept {S S' : Sorter Partition} {isEfi : Bool} {result : List Partition}
    (hdevices : (partitions.map Partition.device).Nodup) (hdistinct : DistinctSubvolumes subvols)
    (hok : btrfsAppendSubvolumes S partitions subvols = .ok (true, result))
    (hkept : TableKept isEfi partitions result (genSfdiskCommand S' result isEfi)) :
    (lines (genSfdiskCommand S' result isEfi)).length ≤ (sfdiskFiltered S' result).length + 2 ∧
      ((sfdiskFiltered S' result).map Partition.device).Nodup := by
  obtain ⟨parts, hlines, -, hparts⟩ := hkept
  have hsubperm := List.subperm_of_subset hdevices (@device_mem_sfdiskFiltered _ _ _ S' _ hdistinct hok)
  have hcount := hsubperm.length_le
  have hlength := hparts.length_eq
  have hmore := @length_le_lines_genSfdiskCommand S' result isEfi
  rw [List.length_map, List.length_map] at hcount hlength
  rw [hlines, List.cons_append, List.length_cons, List.length_append, List.length_map] at hmore ⊢
  refine ⟨by simpa [hlength] using hcount, ?_⟩
  refine (hsubperm.perm_of_length_le ?_).nodup_iff.mp hdevices
  rw [List.length_map, List.length_map]
  simpa [hlength] using hmore

/-- **When adding subvolumes keeps the partition table**, whatever the sorts do with equal keys. -/
theorem tableKept_iff (hdevices : (partitions.map Partition.device).Nodup)
    (hdistinct : DistinctSubvolumes subvols) {S : Sorter Partition} {result : List Partition}
    {isEfi : Bool} (hok : btrfsAppendSubvolumes S partitions subvols = .ok (true, result)) :
    (∀ S', TableKept isEfi partitions result (genSfdiskCommand S' result isEfi)) ↔
      RootSmallest partitions subvols ∧ ∀ part ∈ partitions, '\n' ∉ part.size := by
  constructor
  · intro hkept
    have hsmall : RootSmallest partitions subvols := by
      intro root hroot other hother hne
      by_contra hle
      obtain ⟨S', hS'⟩ := exists_not_nodup hdistinct hok hroot hother hne (not_lt.mp hle)
      exact hS' (length_le_of_tableKept hdevices hdistinct hok (hkept S')).2
    refine ⟨hsmall, fun part hpart hnewline => ?_⟩
    have hsame := @sfdiskFiltered_of_rootSmallest _ _ S .stable _ hdevices hdistinct hok hsmall
    obtain ⟨kept, hkeptMem, heq⟩ := List.mem_map.mp (hsame.symm.subset (List.mem_map_of_mem hpart))
    obtain ⟨-, hsize⟩ := Prod.mk.inj heq
    have hmore := @length_lt_lines_genSfdiskCommand _ _ isEfi kept hkeptMem (hsize ▸ hnewline)
    exact absurd (length_le_of_tableKept hdevices hdistinct hok (hkept .stable)).1 (not_le_of_gt hmore)
  · rintro ⟨hsmall, hnewline⟩ S'
    have hsame := @sfdiskFiltered_of_rootSmallest _ _ S S' _ hdevices hdistinct hok hsmall
    refine ⟨sfdiskFiltered S' result, lines_genSfdiskCommand fun part hpart => ?_,
      sfdiskFiltered_subset S', hsame⟩
    obtain ⟨before, hbefore, heq⟩ := List.mem_map.mp (hsame.subset (List.mem_map_of_mem hpart))
    obtain ⟨-, hsize⟩ := Prod.mk.inj heq
    exact hsize ▸ hnewline before hbefore

end Table

/-- A btrfs root and a boot partition. -/
def rootAndBoot (rootSize bootSize : Str) : List Partition :=
  [{ Partition.empty with
      fstype := lit "btrfs", mountpoint := ['/'], device := lit "/dev/sda2", size := rootSize },
    { Partition.empty with
      fstype := lit "fat32", mountpoint := lit "/boot", device := lit "/dev/sda1",
      size := bootSize }]

/-- The same with a subvolume for /home, sorted by device. -/
def rootBootAndHome (rootSize bootSize : Str) : List Partition :=
  [{ Partition.empty with
      fstype := lit "fat32", mountpoint := lit "/boot", device := lit "/dev/sda1",
      size := bootSize },
    { Partition.empty with
      fstype := lit "btrfs", mountpoint := ['/'], device := lit "/dev/sda2", size := rootSize },
    { Partition.empty with
      fstype := lit "btrfs", mountpoint := lit "/home", device := lit "/dev/sda2",
      subvolume := some (lit "/@home") }]

/-- The boot partition comes between the root and its clone: three lines for two partitions. -/
theorem tableKept_rootWithSize :
    btrfsAppendSubvolumes .stable (rootAndBoot (lit "50G") (lit "2G"))
        [⟨lit "/@home", lit "/home"⟩] = .ok (true, rootBootAndHome (lit "50G") (lit "2G")) ∧
      genSfdiskCommand .stable (rootBootAndHome (lit "50G") (lit "2G")) true =
        lit "label: gpt\ntype=L,size=50G\ntype=U,size=2G,bootable\ntype=L\n" ∧
      ¬ TableKept true (rootAndBoot (lit "50G") (lit "2G")) (rootBootAndHome (lit "50G") (lit "2G"))
        (genSfdiskCommand .stable (rootBootAndHome (lit "50G") (lit "2G")) true) := by
  have htext : genSfdiskCommand .stable (rootBootAndHome (lit "50G") (lit "2G")) true =
      lit "label: gpt\ntype=L,size=50G\ntype=U,size=2G,bootable\ntype=L\n" := by
    decide +kernel
  refine ⟨by decide +kernel, htext, ?_⟩
  rintro ⟨parts, hlines, -, hparts⟩
  have hlength := congrArg List.length hlines
  have htwo := hparts.length_eq
  have hfive : (lines (genSfdiskCommand .stable (rootBootAndHome (lit "50G") (lit "2G")) true)).length =
      5 := by
    decide +kernel
  rw [List.length_map, List.length_map] at htwo
  rw [hfive, List.cons_append, List.length_cons, List.length_append, List.length_map, htwo] at hlength
  exact absurd hlength (by decide)

/-- A root that takes the rest of the disk has no size, and is smaller than any other. -/
theorem tableKept_rootWithoutSize :
    TableKept true (rootAndBoot [] (lit "2G")) (rootBootAndHome [] (lit "2G"))
      (genSfdiskCommand .stable (rootBootAndHome [] (lit "2G")) true) := by
  have hok : btrfsAppendSubvolumes .stable (rootAndBoot [] (lit "2G"))
      [⟨lit "/@home", lit "/home"⟩] = .ok (true, rootBootAndHome [] (lit "2G")) := by
    decide +kernel
  refine (tableKept_iff (by decide +kernel) ⟨?_, ?_⟩ hok).mpr ⟨?_, ?_⟩ .stable
  · decide +kernel
  · decide +kernel
  · rw [RootSmallest]
    decide +kernel
  · simp [rootAndBoot, lit_eq]

end CliInstaller
