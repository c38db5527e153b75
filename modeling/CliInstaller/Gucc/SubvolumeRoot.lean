import CliInstaller.Gucc.Btrfs

/-!
# The root partition while subvolumes are added

`btrfs_append_subvolumes` checks once that there is a btrfs partition at "/", and relies on it in
every later round. A round can take the root away: a subvolume for another mountpoint that has the
name of the root's subvolume moves the root there.

## Main definitions

* `HasRoot`, `RootKept`: there is a btrfs partition at "/", and there still is one in the result
* `TakesRoot`, `GivesRoot`: what a subvolume does to the only root
* `RootReturns`, `RootSafe`: a root that is taken comes back before it is needed

## Main results

* `hasRoot_nextPartitions`: when there is a root after a partition was overwritten
* `rootKept_iff`: when the root is never missed
-/

namespace CliInstaller

open Sorting

/-- There is a btrfs partition at "/". -/
def HasRoot (partitions : List Partition) : Prop :=
  ∃ part ∈ partitions, isRootBtrfsPart part = true

instance (partitions : List Partition) : Decidable (HasRoot partitions) := List.decidableBEx _ _

/-- The partition that a subvolume finds. -/
def foundBy (subvol : BtrfsSubvolume) (partitions : List Partition) : Option Partition :=
  partitions.find? fun part => findPartition part subvol

/-- The partitions after one round of the loop, which without a root does not end. -/
def nextPartitions (subvol : BtrfsSubvolume) (partitions : List Partition) : List Partition :=
  if partitions.any fun part => findPartition part subvol then
    modifyFirst (fun part => findPartition part subvol) (overwrite subvol) partitions
  else
    match findRootBtrfsPart partitions with
    | none => partitions
    | some root => partitions ++ [cloneRoot subvol root]

/-- The subvolume finds the only root, and is for another mountpoint. -/
def TakesRoot (subvol : BtrfsSubvolume) (partitions : List Partition) : Prop :=
  ∃ root, foundBy subvol partitions = some root ∧
    partitions.filter isRootBtrfsPart = [root] ∧ subvol.mountpoint ≠ ['/']

/-- The subvolume is for "/", and finds a btrfs partition. -/
def GivesRoot (subvol : BtrfsSubvolume) (partitions : List Partition) : Prop :=
  ∃ part, foundBy subvol partitions = some part ∧ part.fstype = lit "btrfs" ∧
    subvol.mountpoint = ['/']

/-- One of the subvolumes gives a root, and every one before it finds a partition. -/
def RootReturns : List BtrfsSubvolume → List Partition → Prop
  | [], _ => False
  | subvol :: subvols, partitions =>
    foundBy subvol partitions ≠ none ∧
      (GivesRoot subvol partitions ∨ RootReturns subvols (nextPartitions subvol partitions))

/-- **Whenever the only root is taken, it comes back** before a subvolume finds nothing, and before
the end. -/
def RootSafe : List BtrfsSubvolume → List Partition → Prop
  | [], _ => True
  | subvol :: subvols, partitions =>
    (TakesRoot subvol partitions → RootReturns subvols (nextPartitions subvol partitions)) ∧
      RootSafe subvols (nextPartitions subvol partitions)

/-- The call returns, and there is a root in the result. -/
def RootKept (S : Sorter Partition) (partitions : List Partition) (subvols : List BtrfsSubvolume) :
    Prop :=
  ∃ result, btrfsAppendSubvolumes S partitions subvols = .ok (true, result) ∧ HasRoot result

section Round

variable {partitions : List Partition} {subvol : BtrfsSubvolume} {part : Partition}
  (subvols : List BtrfsSubvolume)

theorem hasRoot_append {l l' : List Partition} : HasRoot (l ++ l') ↔ HasRoot l ∨ HasRoot l' := by
  simp only [HasRoot, List.mem_append, or_and_right, exists_or]

theorem hasRoot_cons {l : List Partition} :
    HasRoot (part :: l) ↔ isRootBtrfsPart part = true ∨ HasRoot l := by
  simp [HasRoot]

theorem findRootBtrfsPart_eq_none : findRootBtrfsPart partitions = none ↔ ¬ HasRoot partitions := by
  simp [findRootBtrfsPart, HasRoot]

theorem any_iff_foundBy :
    (partitions.any fun part => findPartition part subvol) = true ↔
      ∃ part, foundBy subvol partitions = some part := by
  rw [← Option.isSome_iff_exists, foundBy, List.find?_isSome, List.any_eq_true]

theorem isRootBtrfsPart_iff :
    isRootBtrfsPart part = true ↔ part.mountpoint = ['/'] ∧ part.fstype = lit "btrfs" := by
  simp [isRootBtrfsPart]

/-- What is found is overwritten where it stands. -/
theorem nextPartitions_of_foundBy (h : foundBy subvol partitions = some part) :
    ∃ before after, partitions = before ++ part :: after ∧
      (∀ p ∈ before, findPartition p subvol = false) ∧ findPartition part subvol = true ∧
      nextPartitions subvol partitions = before ++ overwrite subvol part :: after := by
  obtain ⟨hpart, before, after, hsplit, hbefore⟩ := List.find?_eq_some_iff_append.mp h
  have hbefore : ∀ p ∈ before, findPartition p subvol = false :=
    fun p hp => by simpa using hbefore p hp
  refine ⟨before, after, hsplit, hbefore, hpart, ?_⟩
  rw [nextPartitions, if_pos (any_iff_foundBy.mpr ⟨part, h⟩), hsplit]
  exact modifyFirst_of_find? hbefore hpart

/-- What is given is a root: the partition found is one once it is overwritten. -/
theorem givesRoot_iff_overwrite (h : foundBy subvol partitions = some part) :
    GivesRoot subvol partitions ↔ isRootBtrfsPart (overwrite subvol part) = true := by
  rw [isRootBtrfsPart_iff]
  constructor
  · rintro ⟨part', h', hfstype, hmount⟩
    obtain rfl := Option.some.inj (h.symm.trans h')
    exact ⟨hmount, hfstype⟩
  · rintro ⟨hmount, hfstype⟩
    exact ⟨part, h, hfstype, hmount⟩

theorem filter_isRootBtrfsPart_eq_nil {l : List Partition} :
    l.filter isRootBtrfsPart = [] ↔ ¬ HasRoot l := by
  simp [HasRoot]

/-- The root that is taken is the only one on both sides of it. -/
theorem takesRoot_iff_split {before after : List Partition}
    (h : foundBy subvol partitions = some part) (hsplit : partitions = before ++ part :: after) :
    TakesRoot subvol partitions ↔
      isRootBtrfsPart part = true ∧ ¬ HasRoot before ∧ ¬ HasRoot after ∧
        subvol.mountpoint ≠ ['/'] := by
  constructor
  · rintro ⟨root, h', hfilter, hmount⟩
    obtain rfl := Option.some.inj (h.symm.trans h')
    have hroot : isRootBtrfsPart part = true :=
      (List.mem_filter.mp (hfilter ▸ List.mem_singleton_self part)).2
    rw [hsplit, List.filter_append, List.filter_cons_of_pos hroot] at hfilter
    have hlength := congrArg List.length hfilter
    simp only [List.length_append, List.length_cons, List.length_nil] at hlength
    refine ⟨hroot, filter_isRootBtrfsPart_eq_nil.mp ?_, filter_isRootBtrfsPart_eq_nil.mp ?_, hmount⟩
    · exact List.eq_nil_of_length_eq_zero (by omega)
    · exact List.eq_nil_of_length_eq_zero (by omega)
  · rintro ⟨hroot, hbefore, hafter, hmount⟩
    refine ⟨part, h, ?_, hmount⟩
    rw [hsplit, List.filter_append, List.filter_cons_of_pos hroot,
      filter_isRootBtrfsPart_eq_nil.mpr hbefore, filter_isRootBtrfsPart_eq_nil.mpr hafter,
      List.nil_append]

/-- **When there is a root after a partition was overwritten.** -/
theorem hasRoot_nextPartitions (h : foundBy subvol partitions = some part) :
    HasRoot (nextPartitions subvol partitions) ↔
      GivesRoot subvol partitions ∨ HasRoot partitions ∧ ¬ TakesRoot subvol partitions := by
  obtain ⟨before, after, hsplit, -, -, hnext⟩ := nextPartitions_of_foundBy h
  have hoverwrite : isRootBtrfsPart (overwrite subvol part) = true ↔
      subvol.mountpoint = ['/'] ∧ part.fstype = lit "btrfs" := isRootBtrfsPart_iff
  have hhas : HasRoot partitions ↔
      HasRoot before ∨ isRootBtrfsPart part = true ∨ HasRoot after := by
    rw [hsplit, hasRoot_append, hasRoot_cons]
  have hbtrfs : isRootBtrfsPart part = true → part.fstype = lit "btrfs" :=
    fun hroot => (isRootBtrfsPart_iff.mp hroot).2
  rw [hnext, hasRoot_append, hasRoot_cons, givesRoot_iff_overwrite h, takesRoot_iff_split h hsplit,
    hhas, hoverwrite]
  by_cases hmount : subvol.mountpoint = ['/'] <;> by_cases hbefore : HasRoot before <;>
    by_cases hafter : HasRoot after <;> simp [hmount, hbefore, hafter]
  exact hbtrfs

/-- A clone leaves the root where it is. -/
theorem hasRoot_nextPartitions_of_not_foundBy (h : foundBy subvol partitions = none)
    (hroot : HasRoot partitions) : HasRoot (nextPartitions subvol partitions) := by
  have hany : ¬ (partitions.any fun part => findPartition part subvol) = true := by
    rw [any_iff_foundBy, h]
    simp
  rw [nextPartitions, if_neg hany]
  split
  · exact hroot
  · exact hasRoot_append.mpr (.inl hroot)

/-- A round that ends is followed by the others. -/
theorem appendSubvolumes_cons (h : foundBy subvol partitions ≠ none ∨ HasRoot partitions) :
    appendSubvolumes (subvol :: subvols) partitions =
      appendSubvolumes subvols (nextPartitions subvol partitions) := by
  rw [appendSubvolumes, nextPartitions]
  split_ifs with hany
  · rfl
  · rcases hroot : findRootBtrfsPart partitions with _ | root
    · rcases h with h | h
      · exact absurd (any_iff_foundBy.mpr (Option.ne_none_iff_exists'.mp h)) hany
      · exact absurd h (findRootBtrfsPart_eq_none.mp hroot)
    · rfl

/-- Without a root a subvolume that finds nothing dereferences the end of the list. -/
theorem appendSubvolumes_cons_of_lost (h : foundBy subvol partitions = none)
    (hroot : ¬ HasRoot partitions) :
    appendSubvolumes (subvol :: subvols) partitions = .error .endIterator := by
  have hany : ¬ (partitions.any fun part => findPartition part subvol) = true := by
    rw [any_iff_foundBy, h]
    simp
  rw [appendSubvolumes, if_neg hany, findRootBtrfsPart_eq_none.mpr hroot]

end Round

/-- The rounds end, and leave a root. -/
def LoopKeepsRoot (subvols : List BtrfsSubvolume) (partitions : List Partition) : Prop :=
  ∃ result, appendSubvolumes subvols partitions = .ok result ∧ HasRoot result

/-- **When the rounds leave a root**, with a root to begin with or without. -/
theorem loopKeepsRoot_iff (subvols : List BtrfsSubvolume) (partitions : List Partition) :
    LoopKeepsRoot subvols partitions ↔
      RootSafe subvols partitions ∧ (HasRoot partitions ∨ RootReturns subvols partitions) := by
  induction subvols generalizing partitions with
  | nil => simp [LoopKeepsRoot, appendSubvolumes, RootSafe, RootReturns]
  | cons subvol subvols ih =>
    rcases hfound : foundBy subvol partitions with _ | part
    · have htakes : ¬ TakesRoot subvol partitions := by
        rintro ⟨root, h, -⟩
        rw [hfound] at h
        cases h
      by_cases hroot : HasRoot partitions
      · have hnext := hasRoot_nextPartitions_of_not_foundBy hfound hroot
        rw [LoopKeepsRoot, appendSubvolumes_cons subvols (.inr hroot), ← LoopKeepsRoot, ih, RootSafe]
        simp [htakes, hroot, hnext]
      · rw [LoopKeepsRoot, appendSubvolumes_cons_of_lost subvols hfound hroot, RootReturns]
        simp [hroot, hfound]
    · have hnext := hasRoot_nextPartitions hfound
      have hgives : GivesRoot subvol partitions → ¬ TakesRoot subvol partitions := by
        rintro ⟨-, -, -, hmount⟩ ⟨-, -, -, hother⟩
        exact hother hmount
      have htakes : TakesRoot subvol partitions → HasRoot partitions := by
        rintro ⟨root, -, hfilter, -⟩
        obtain ⟨hmem, hroot⟩ := List.mem_filter.mp (hfilter ▸ List.mem_singleton_self root)
        exact ⟨root, hmem, hroot⟩
      have hne : foundBy subvol partitions ≠ none := by simp [hfound]
      rw [LoopKeepsRoot, appendSubvolumes_cons subvols (.inl hne), ← LoopKeepsRoot, ih, hnext,
        RootSafe, RootReturns, and_iff_right hne]
      by_cases htaken : TakesRoot subvol partitions
      -- The root that is taken has to come back later.
      · have hnot : ¬ GivesRoot subvol partitions := fun hgiven => hgives hgiven htaken
        simp only [htaken, htakes htaken, hnot, not_true, and_false, or_false, false_or, true_or,
          and_true, true_implies]
        exact and_comm
      · simp only [htaken, not_false_iff, and_true, false_implies, true_and]
        rw [or_comm (a := GivesRoot subvol partitions), or_assoc]

/-- **When the root is never missed**: every root that is taken comes back. -/
theorem rootKept_iff (S : Sorter Partition) (partitions : List Partition)
    (subvols : List BtrfsSubvolume) (h : HasRoot partitions) :
    RootKept S partitions subvols ↔ RootSafe subvols partitions := by
  have hloop : LoopKeepsRoot subvols partitions ↔ RootSafe subvols partitions := by
    rw [loopKeepsRoot_iff]
    exact and_iff_left (.inl h)
  rw [← hloop, RootKept, btrfsAppendSubvolumes]
  have hroot : (findRootBtrfsPart partitions).isNone = false := by
    rw [Option.isNone_eq_false_iff, Option.isSome_iff_ne_none, Ne, findRootBtrfsPart_eq_none]
    exact not_not.mpr h
  rcases hempty : subvols.isEmpty with _ | _
  · simp only [hroot, Bool.false_eq_true, if_false]
    rw [LoopKeepsRoot]
    rcases appendSubvolumes subvols partitions with fault | result
    · simp [bind, Except.bind]
    · simp [bind, Except.bind, pure, Except.pure, HasRoot]
  · obtain rfl := List.isEmpty_iff.mp hempty
    simp [LoopKeepsRoot, appendSubvolumes]

/-- A btrfs root with this subvolume. -/
def namedRoot (subvolume : Option Str) : Partition :=
  { Partition.empty with
    fstype := lit "btrfs", mountpoint := ['/'], device := lit "/dev/sda2", subvolume }

theorem hasRoot_namedRoot (subvolume : Option Str) : HasRoot [namedRoot subvolume] :=
  ⟨namedRoot subvolume, List.mem_singleton_self _, isRootBtrfsPart_iff.mpr ⟨rfl, rfl⟩⟩

/-- The usual subvolumes for "/" and "/home". -/
theorem rootKept_iff_usual :
    RootKept .stable [namedRoot none] [⟨lit "/@", ['/']⟩, ⟨lit "/@home", lit "/home"⟩] := by
  refine (rootKept_iff .stable _ _ (hasRoot_namedRoot none)).mpr ⟨?_, ?_, trivial⟩
  · rintro ⟨-, -, -, hmount⟩
    exact absurd rfl hmount
  · rintro ⟨root, hfound, -⟩
    have hnone : foundBy ⟨lit "/@home", lit "/home"⟩
        (nextPartitions ⟨lit "/@", ['/']⟩ [namedRoot none]) = none := by
      simp [foundBy, nextPartitions, modifyFirst, findPartition, overwrite, namedRoot, lit_eq]
    rw [hnone] at hfound
    cases hfound

/-- The subvolume of the root is asked for at "/home": the next one finds no root to clone. -/
theorem rootKept_moved :
    let partitions := [namedRoot (some (lit "/@"))]
    let subvols := [⟨lit "/@", lit "/home"⟩, ⟨lit "/@srv", lit "/srv"⟩]
    HasRoot partitions ∧ btrfsAppendSubvolumes .stable partitions subvols = .error .endIterator ∧
      ¬ RootKept .stable partitions subvols := by
  intro partitions subvols
  have hrun : btrfsAppendSubvolumes .stable partitions subvols = .error .endIterator := by
    simp [partitions, subvols, btrfsAppendSubvolumes, findRootBtrfsPart, isRootBtrfsPart,
      appendSubvolumes, modifyFirst, findPartition, overwrite, namedRoot, lit_eq, bind, Except.bind]
  refine ⟨hasRoot_namedRoot _, hrun, ?_⟩
  rintro ⟨result, hok, -⟩
  rw [hrun] at hok
  cases hok

end CliInstaller
