import CliInstaller.General.Sorting
import CliInstaller.Gucc.Partition

/-!
# `gucc::fs`: btrfs subvolumes in the partition scheme

A subvolume takes over the first partition with its mountpoint or name; where there is none, the
root partition is cloned for it. A clone is given no size.

Source: `gucc/src/btrfs.cpp`.

## Main definitions

* `modifyFirst`: overwriting the first element that is found
* `appendSubvolumes`, `btrfsAppendSubvolumes`: the loop, and the function
* `clonedRoots`: the root partitions that the loop clones

## Main results

* `appendSubvolumes_spec`: the devices and sizes after the loop
-/

namespace CliInstaller

open Sorting

/-- `std::ranges::find_if`, and overwriting what the iterator points to. -/
def modifyFirst {α : Type} (p : α → Bool) (f : α → α) : List α → List α
  | [] => []
  | a :: l => if p a then f a :: l else a :: modifyFirst p f l

theorem map_modifyFirst {α β : Type} {p : α → Bool} {f : α → α} {g : α → β}
    (hg : ∀ a, g (f a) = g a) (l : List α) : (modifyFirst p f l).map g = l.map g := by
  induction l with
  | nil => rfl
  | cons a l ih =>
    rw [modifyFirst]
    split_ifs
    · rw [List.map_cons, List.map_cons, hg]
    · rw [List.map_cons, List.map_cons, ih]

/-- Nothing is found. -/
theorem modifyFirst_of_forall {α : Type} {p : α → Bool} {f : α → α} {l : List α}
    (h : ∀ a ∈ l, p a = false) : modifyFirst p f l = l := by
  induction l with
  | nil => rfl
  | cons a l ih =>
    rw [modifyFirst, if_neg (by simp [h a List.mem_cons_self]),
      ih fun b hb => h b (List.mem_cons_of_mem a hb)]

/-- The first element that is found stands in the first list, or else in the second. -/
theorem modifyFirst_append_eq_ite {α : Type} (p : α → Bool) (f : α → α) (l₁ l₂ : List α) :
    modifyFirst p f (l₁ ++ l₂) =
      if l₁.any p then modifyFirst p f l₁ ++ l₂ else l₁ ++ modifyFirst p f l₂ := by
  induction l₁ with
  | nil => rfl
  | cons a l₁ ih =>
    rw [List.cons_append, modifyFirst, modifyFirst, List.any_cons]
    by_cases ha : p a = true
    · simp [ha]
    · rw [if_neg ha, if_neg ha, ih]
      rw [Bool.not_eq_true] at ha
      rw [ha, Bool.false_or]
      split_ifs <;> rfl

theorem modifyFirst_append {α : Type} {p : α → Bool} {f : α → α} {l₂ : List α}
    (h : ∀ a ∈ l₂, p a = false) (l₁ : List α) :
    modifyFirst p f (l₁ ++ l₂) = modifyFirst p f l₁ ++ l₂ := by
  rw [modifyFirst_append_eq_ite]
  split_ifs with hany
  · rfl
  · have hnone : ∀ a ∈ l₁, p a = false := by simpa using hany
    rw [modifyFirst_of_forall h, modifyFirst_of_forall hnone]

theorem modifyFirst_of_find? {α : Type} {p : α → Bool} {f : α → α} {before after : List α} {a : α}
    (hbefore : ∀ b ∈ before, p b = false) (ha : p a = true) :
    modifyFirst p f (before ++ a :: after) = before ++ f a :: after := by
  have hnone : ¬ before.any p = true := by simpa using hbefore
  rw [modifyFirst_append_eq_ite, if_neg hnone, modifyFirst, if_pos ha]

def findPartition (part : Partition) (subvol : BtrfsSubvolume) : Bool :=
  part.mountpoint = subvol.mountpoint || part.subvolume = some subvol.subvolume

def isRootBtrfsPart (part : Partition) : Bool :=
  part.mountpoint = ['/'] && part.fstype = lit "btrfs"

def findRootBtrfsPart (parts : List Partition) : Option Partition := parts.find? isRootBtrfsPart

/-- The values that overwrite a partition. -/
def overwrite (subvol : BtrfsSubvolume) (part : Partition) : Partition :=
  { part with mountpoint := subvol.mountpoint, subvolume := some subvol.subvolume }

/-- The partition that is appended, based on the root partition. -/
def cloneRoot (subvol : BtrfsSubvolume) (root : Partition) : Partition :=
  { Partition.empty with
    fstype := root.fstype
    mountpoint := subvol.mountpoint
    uuidStr := root.uuidStr
    device := root.device
    mountOpts := root.mountOpts
    subvolume := some subvol.subvolume
    luksMapperName := root.luksMapperName
    luksUuid := root.luksUuid
    luksPassphrase := root.luksPassphrase }

/-- The loop over the subvolumes. The root partition is dereferenced unchecked: an earlier
subvolume may have moved it. -/
def appendSubvolumes : List BtrfsSubvolume → List Partition → Except Fault (List Partition)
  | [], partitions => .ok partitions
  | subvol :: subvols, partitions =>
    if partitions.any fun part => findPartition part subvol then
      appendSubvolumes subvols
        (modifyFirst (fun part => findPartition part subvol) (overwrite subvol) partitions)
    else
      match findRootBtrfsPart partitions with
      | none => .error .endIterator
      | some root => appendSubvolumes subvols (partitions ++ [cloneRoot subvol root])

def btrfsAppendSubvolumes (S : Sorter Partition) (partitions : List Partition)
    (subvols : List BtrfsSubvolume) : Except Fault (Bool × List Partition) :=
  if subvols.isEmpty then .ok (true, partitions)
  else if (findRootBtrfsPart partitions).isNone then .ok (false, partitions)
  else do
    let partitions ← appendSubvolumes subvols partitions
    return (true, S.byKey Partition.device partitions)

/-! ## Devices and sizes -/

/-- The root partition of each step that clones it, in the state it is cloned in. -/
def clonedRoots : List BtrfsSubvolume → List Partition → List Partition
  | [], _ => []
  | subvol :: subvols, partitions =>
    if partitions.any fun part => findPartition part subvol then
      clonedRoots subvols
        (modifyFirst (fun part => findPartition part subvol) (overwrite subvol) partitions)
    else
      match findRootBtrfsPart partitions with
      | none => []
      | some root => root :: clonedRoots subvols (partitions ++ [cloneRoot subvol root])

/-- The device and the size of a partition. -/
def deviceSize (part : Partition) : Str × Str := (part.device, part.size)

/-- A partition that no subvolume finds, and that is not the root: what a clone is to all later
steps. -/
def Untouched (subvols : List BtrfsSubvolume) (part : Partition) : Prop :=
  isRootBtrfsPart part = false ∧ ∀ subvol ∈ subvols, findPartition part subvol = false

/-- The names and the mountpoints of the subvolumes are pairwise distinct. -/
def DistinctSubvolumes (subvols : List BtrfsSubvolume) : Prop :=
  (subvols.map BtrfsSubvolume.subvolume).Nodup ∧ (subvols.map BtrfsSubvolume.mountpoint).Nodup

theorem Untouched.tail {subvol : BtrfsSubvolume} {subvols : List BtrfsSubvolume} {part : Partition}
    (h : Untouched (subvol :: subvols) part) : Untouched subvols part :=
  ⟨h.1, fun s hs => h.2 s (List.mem_cons_of_mem subvol hs)⟩

theorem DistinctSubvolumes.tail {subvol : BtrfsSubvolume} {subvols : List BtrfsSubvolume}
    (h : DistinctSubvolumes (subvol :: subvols)) : DistinctSubvolumes subvols :=
  ⟨h.1.of_cons, h.2.of_cons⟩

/-- A clone is not the root, whose mountpoint the subvolume would have found, and the other
subvolumes do not find it. -/
theorem untouched_cloneRoot {subvol : BtrfsSubvolume} {subvols : List BtrfsSubvolume}
    {root : Partition} (hdistinct : DistinctSubvolumes (subvol :: subvols))
    (hroot : isRootBtrfsPart root = true) (hnone : findPartition root subvol = false) :
    Untouched subvols (cloneRoot subvol root) := by
  obtain ⟨hnames, hmounts⟩ := hdistinct
  simp only [List.map_cons, List.nodup_cons, List.mem_map, not_exists, not_and] at hnames hmounts
  simp only [isRootBtrfsPart, Bool.and_eq_true, decide_eq_true_eq] at hroot
  simp only [findPartition, Bool.or_eq_false_iff, decide_eq_false_iff_not] at hnone
  constructor
  · have hmount : subvol.mountpoint ≠ ['/'] := fun h => hnone.1 (hroot.1.trans h.symm)
    simp [isRootBtrfsPart, cloneRoot, hmount]
  · intro s hs
    have hname := hnames.1 s hs
    have hmount := hmounts.1 s hs
    simp [findPartition, cloneRoot, Ne.symm hname, Ne.symm hmount]

/-- **What the loop does to the table**: the partitions keep their devices and sizes, and for every
root that is cloned there is one more partition, on its device and without a size; the roots are
partitions of the table. -/
theorem appendSubvolumes_spec {subvols : List BtrfsSubvolume} {parts clones result : List Partition}
    (hdistinct : DistinctSubvolumes subvols) (hclones : ∀ c ∈ clones, Untouched subvols c)
    (h : appendSubvolumes subvols (parts ++ clones) = .ok result) :
    ∃ parts' new, result = parts' ++ (clones ++ new) ∧
      parts'.map deviceSize = parts.map deviceSize ∧
      new.map deviceSize = (clonedRoots subvols (parts ++ clones)).map (fun r => (r.device, [])) ∧
      ∀ r ∈ clonedRoots subvols (parts ++ clones), deviceSize r ∈ parts.map deviceSize := by
  induction subvols generalizing parts clones with
  | nil =>
    obtain rfl := Except.ok.inj h
    exact ⟨parts, [], by simp, rfl, rfl, by simp [clonedRoots]⟩
  | cons subvol subvols ih =>
    have hfind : ∀ c ∈ clones, findPartition c subvol = false :=
      fun c hc => (hclones c hc).2 subvol List.mem_cons_self
    rw [appendSubvolumes] at h
    rw [clonedRoots]
    by_cases hany : (parts ++ clones).any fun part => findPartition part subvol
    · rw [if_pos hany] at h ⊢
      rw [modifyFirst_append hfind] at h ⊢
      have hkeep : (modifyFirst (fun part => findPartition part subvol) (overwrite subvol)
          parts).map deviceSize = parts.map deviceSize :=
        map_modifyFirst (fun part => (rfl : deviceSize (overwrite subvol part) = _)) parts
      have hrest := ih hdistinct.tail (fun c hc => (hclones c hc).tail) h
      rwa [hkeep] at hrest
    -- The root is cloned. It is one of the partitions, since no clone is a root.
    · rw [if_neg hany] at h ⊢
      rcases hroot : findRootBtrfsPart (parts ++ clones) with _ | root
      · simp [hroot] at h
      · rw [hroot] at h
        have hisRoot := List.find?_some hroot
        have hmem : root ∈ parts := by
          rcases List.mem_append.mp (List.mem_of_find?_eq_some hroot) with hp | hc
          · exact hp
          · rw [(hclones root hc).1] at hisRoot
            exact absurd hisRoot Bool.noConfusion
        have hnone : findPartition root subvol = false := by
          simp only [List.any_eq_true, not_exists, not_and, Bool.not_eq_true] at hany
          exact hany root (List.mem_append_left _ hmem)
        simp only [List.append_assoc] at h ⊢
        have hclones' : ∀ c ∈ clones ++ [cloneRoot subvol root], Untouched subvols c := by
          intro c hc
          rcases List.mem_append.mp hc with hc | hc
          · exact (hclones c hc).tail
          · rw [List.mem_singleton.mp hc]
            exact untouched_cloneRoot hdistinct hisRoot hnone
        obtain ⟨parts', new, rfl, hkeep, hnew, hroots⟩ :=
          @ih parts (clones ++ [cloneRoot subvol root]) hdistinct.tail hclones' h
        refine ⟨parts', cloneRoot subvol root :: new, by simp, hkeep, ?_, ?_⟩
        · rw [List.map_cons, List.map_cons, hnew]
          rfl
        · intro r hr
          rcases List.mem_cons.mp hr with rfl | hr
          · exact List.mem_map_of_mem hmem
          · exact hroots r hr

end CliInstaller
