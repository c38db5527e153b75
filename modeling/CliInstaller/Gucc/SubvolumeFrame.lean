import CliInstaller.Gucc.SubvolumeRoot

/-!
# What adding subvolumes leaves as it is

The loop overwrites the mountpoint and the subvolume of partitions, and appends clones of a root.
Which subvolume a partition of the list ends with is the last one that finds it.

## Main definitions

* `lastRequest`: the last subvolume that finds the partition at an index
* `frame`, `CopyOf`: the fields that are never overwritten, and those that a clone copies
* `SubvolumesAdded`: the result when names and mountpoints are distinct
* `Foreign`, `ForeignKept`: what is not of the root's file system, and that it is kept

## Main results

* `appendSubvolumes_getElem?`: the loop applies to each partition the last request for it
* `appendSubvolumes_frame`: the other fields, and those of the clones
* `btrfsAppendSubvolumes_added`: what the result is when names and mountpoints are distinct
* `foreignKept_iff`: when the partitions of other file systems are kept
-/

namespace CliInstaller

open Sorting

/-! ## The last request -/

/-- The last subvolume that finds the partition at an index, if any. -/
def lastRequest : List BtrfsSubvolume → List Partition → Nat → Option BtrfsSubvolume
  | [], _, _ => none
  | subvol :: subvols, partitions, i =>
    (lastRequest subvols (nextPartitions subvol partitions) i).or
      (if partitions.findIdx (fun part => findPartition part subvol) = i then some subvol else none)

/-- The partition after the last request for it. -/
def afterRequest (request : Option BtrfsSubvolume) (part : Partition) : Partition :=
  match request with
  | none => part
  | some subvol => overwrite subvol part

/-- The fields that are never overwritten. -/
def frame (part : Partition) : Partition := { part with mountpoint := [], subvolume := none }

theorem modifyFirst_eq_modify {α : Type} (p : α → Bool) (f : α → α) (l : List α) :
    modifyFirst p f l = l.modify (l.findIdx p) f := by
  induction l with
  | nil => rfl
  | cons a l ih =>
    rw [modifyFirst, List.findIdx_cons]
    by_cases h : p a = true
    · simp [h]
    · simp [h, ih]

section Requests

variable {subvol : BtrfsSubvolume} {subvols : List BtrfsSubvolume}
  {partitions appended : List Partition} {part : Partition} {i : Nat}

/-- What one round does to the partition at an index. -/
theorem nextPartitions_getElem? (h : partitions[i]? = some part) :
    (nextPartitions subvol partitions)[i]? = some (afterRequest
      (if partitions.findIdx (fun part => findPartition part subvol) = i then some subvol else none)
      part) := by
  have hi : i < partitions.length := (List.getElem?_eq_some_iff.mp h).1
  rw [nextPartitions]
  split_ifs with hany hidx hidx
  · rw [modifyFirst_eq_modify, List.getElem?_modify, h]
    simp [hidx, afterRequest]
  · rw [modifyFirst_eq_modify, List.getElem?_modify, h]
    simp [hidx, afterRequest]
  · have hlt : partitions.findIdx (fun part => findPartition part subvol) < partitions.length :=
      hidx ▸ hi
    rw [List.findIdx_lt_length] at hlt
    exact absurd (List.any_eq_true.mpr hlt) hany
  · split
    · exact h
    · rw [List.getElem?_append_left hi]
      exact h

theorem afterRequest_or (request request' : Option BtrfsSubvolume) (part : Partition) :
    afterRequest request (afterRequest request' part) = afterRequest (request.or request') part := by
  cases request <;> cases request' <;> rfl

/-- A loop that ends has a first round that ends. -/
theorem appendSubvolumes_of_cons (h : appendSubvolumes (subvol :: subvols) partitions = .ok appended) :
    (foundBy subvol partitions ≠ none ∨ HasRoot partitions) ∧
      appendSubvolumes subvols (nextPartitions subvol partitions) = .ok appended := by
  by_cases hround : foundBy subvol partitions ≠ none ∨ HasRoot partitions
  · exact ⟨hround, (appendSubvolumes_cons subvols hround).symm.trans h⟩
  · push Not at hround
    rw [appendSubvolumes_cons_of_lost subvols hround.1 hround.2] at h
    cases h

/-- **The loop applies to each partition the last request for it.** -/
theorem appendSubvolumes_getElem? (h : appendSubvolumes subvols partitions = .ok appended)
    (hi : partitions[i]? = some part) :
    appended[i]? = some (afterRequest (lastRequest subvols partitions i) part) := by
  induction subvols generalizing partitions part with
  | nil =>
    obtain rfl := Except.ok.inj h
    exact hi
  | cons subvol subvols ih =>
    rw [ih (appendSubvolumes_of_cons h).2 (nextPartitions_getElem? hi), afterRequest_or, lastRequest]

theorem clonedRoots_cons (subvol : BtrfsSubvolume) (subvols : List BtrfsSubvolume)
    (h : foundBy subvol partitions ≠ none ∨ HasRoot partitions) :
    clonedRoots (subvol :: subvols) partitions =
      (if foundBy subvol partitions = none then (findRootBtrfsPart partitions).toList else []) ++
        clonedRoots subvols (nextPartitions subvol partitions) := by
  rw [clonedRoots, nextPartitions]
  by_cases hany : (partitions.any fun part => findPartition part subvol) = true
  · have hfound := Option.ne_none_iff_exists'.mpr (any_iff_foundBy.mp hany)
    rw [if_pos hany, if_pos hany, if_neg hfound, List.nil_append]
  · have hnone : foundBy subvol partitions = none := by
      by_contra hfound
      exact hany (any_iff_foundBy.mpr (Option.ne_none_iff_exists'.mp hfound))
    rw [if_neg hany, if_neg hany, if_pos hnone]
    rcases hroot : findRootBtrfsPart partitions with _ | root
    · exact absurd (h.resolve_left (not_not.mpr hnone)) (findRootBtrfsPart_eq_none.mp hroot)
    · rfl

/-- The fields of the clone of a root that are never overwritten. -/
def cloneFrame (root : Partition) : Partition := { frame root with size := [] }

/-- What one round does to the other fields. -/
theorem nextPartitions_frame :
    (nextPartitions subvol partitions).map frame = partitions.map frame ++
      (if foundBy subvol partitions = none then (findRootBtrfsPart partitions).toList else []).map
        cloneFrame := by
  rw [nextPartitions]
  by_cases hany : (partitions.any fun part => findPartition part subvol) = true
  · have hfound := Option.ne_none_iff_exists'.mpr (any_iff_foundBy.mp hany)
    rw [if_pos hany, if_neg hfound, List.map_nil, List.append_nil]
    exact map_modifyFirst (fun part => (rfl : frame (overwrite subvol part) = frame part)) partitions
  · have hnone : foundBy subvol partitions = none := by
      by_contra hfound
      exact hany (any_iff_foundBy.mpr (Option.ne_none_iff_exists'.mp hfound))
    rw [if_neg hany, if_pos hnone]
    rcases findRootBtrfsPart partitions with _ | root
    · simp
    · simp [frame, cloneFrame, cloneRoot, Partition.empty]

/-- **The other fields are those of the list and of the roots that are cloned.** -/
theorem appendSubvolumes_frame (h : appendSubvolumes subvols partitions = .ok appended) :
    appended.map frame = partitions.map frame ++ (clonedRoots subvols partitions).map cloneFrame := by
  induction subvols generalizing partitions with
  | nil =>
    obtain rfl := Except.ok.inj h
    simp [clonedRoots]
  | cons subvol subvols ih =>
    obtain ⟨hround, hrest⟩ := appendSubvolumes_of_cons h
    rw [ih hrest, nextPartitions_frame, clonedRoots_cons subvol subvols hround, List.map_append,
      List.append_assoc]

/-- The partitions that are added have the other fields of the roots that are cloned. -/
theorem appendSubvolumes_drop_frame (h : appendSubvolumes subvols partitions = .ok appended) :
    (appended.drop partitions.length).map frame =
      (clonedRoots subvols partitions).map cloneFrame := by
  rw [List.map_drop, appendSubvolumes_frame h]
  exact List.drop_left' (by simp)

end Requests

/-! ## Distinct subvolumes -/

/-- No subvolume finds the partition. -/
def Unfound (subvols : List BtrfsSubvolume) (part : Partition) : Prop :=
  ∀ subvol ∈ subvols, findPartition part subvol = false

/-- The partition is as it was, or overwritten by a subvolume that finds it. -/
def KeptBy (subvols : List BtrfsSubvolume) (part part' : Partition) : Prop :=
  part' = part ∨ ∃ subvol ∈ subvols, findPartition part subvol = true ∧ part' = overwrite subvol part

/-- The fields that a clone copies. -/
def CopyOf (donor part : Partition) : Prop :=
  part.device = donor.device ∧ part.fstype = donor.fstype ∧ part.uuidStr = donor.uuidStr ∧
    part.mountOpts = donor.mountOpts ∧ part.luksMapperName = donor.luksMapperName ∧
    part.luksUuid = donor.luksUuid ∧ part.luksPassphrase = donor.luksPassphrase

/-- The subvolume for "/" has the name of the partition. -/
def NamedForRoot (subvols : List BtrfsSubvolume) (part : Partition) : Prop :=
  ∃ subvol ∈ subvols, subvol.mountpoint = ['/'] ∧ part.subvolume = some subvol.subvolume

/-- The root, or a btrfs partition before it that is at "/" or has the name that is asked for
there. -/
def Donor (subvols : List BtrfsSubvolume) (before : List Partition) (root donor : Partition) : Prop :=
  donor = root ∨ donor ∈ before ∧ donor.fstype = lit "btrfs" ∧
    (donor.mountpoint = ['/'] ∨ NamedForRoot subvols donor)

/-- The name of the root's subvolume is asked for at "/" only. -/
def NameAtRoot (subvols : List BtrfsSubvolume) (root : Partition) : Prop :=
  ∀ subvol ∈ subvols, root.subvolume = some subvol.subvolume → subvol.mountpoint = ['/']

section Distinct

variable {subvol : BtrfsSubvolume} {subvols : List BtrfsSubvolume}
  {partitions appended before after : List Partition} {part root : Partition} {i : Nat}

/-- What a subvolume has written, no other finds. -/
theorem unfound_of_written (hdistinct : DistinctSubvolumes (subvol :: subvols))
    (hmount : part.mountpoint = subvol.mountpoint) (hname : part.subvolume = some subvol.subvolume) :
    Unfound subvols part := by
  obtain ⟨hnames, hmounts⟩ := hdistinct
  simp only [List.map_cons, List.nodup_cons, List.mem_map, not_exists, not_and] at hnames hmounts
  intro s hs
  have hname' := hnames.1 s hs
  have hmount' := hmounts.1 s hs
  simp [findPartition, hmount, hname, Ne.symm hname', Ne.symm hmount']

/-- The place a subvolume finds holds a partition it finds. -/
theorem findPartition_of_findIdx (hi : partitions[i]? = some part)
    (hidx : partitions.findIdx (fun part => findPartition part subvol) = i) :
    findPartition part subvol = true := by
  obtain ⟨hlt, hpart⟩ := List.getElem?_eq_some_iff.mp hi
  subst hidx
  have hfound := List.findIdx_getElem (w := hlt)
  rwa [hpart] at hfound

/-- A partition that no subvolume finds is not requested. -/
theorem lastRequest_of_unfound (hdistinct : DistinctSubvolumes subvols)
    (hi : partitions[i]? = some part) (h : Unfound subvols part) :
    lastRequest subvols partitions i = none := by
  induction subvols generalizing partitions with
  | nil => rfl
  | cons subvol subvols ih =>
    have hidx : partitions.findIdx (fun part => findPartition part subvol) ≠ i := by
      intro hidx
      have hfound := findPartition_of_findIdx hi hidx
      rw [h subvol List.mem_cons_self] at hfound
      cases hfound
    have hnext : (nextPartitions subvol partitions)[i]? = some part := by
      rw [nextPartitions_getElem? hi, if_neg hidx]
      rfl
    rw [lastRequest, if_neg hidx, ih hdistinct.tail hnext fun s hs => h s (List.mem_cons_of_mem _ hs)]
    rfl

/-- The last request is by a subvolume that finds the partition as it was. -/
theorem findPartition_of_lastRequest {request : BtrfsSubvolume}
    (hdistinct : DistinctSubvolumes subvols) (hi : partitions[i]? = some part)
    (h : lastRequest subvols partitions i = some request) :
    request ∈ subvols ∧ findPartition part request = true := by
  induction subvols generalizing partitions with
  | nil => cases h
  | cons subvol subvols ih =>
    rw [lastRequest] at h
    have hnext := @nextPartitions_getElem? subvol _ _ _ hi
    by_cases hidx : partitions.findIdx (fun part => findPartition part subvol) = i
    · rw [if_pos hidx] at h hnext
      have hunfound : Unfound subvols (afterRequest (some subvol) part) :=
        unfound_of_written hdistinct rfl rfl
      rw [lastRequest_of_unfound hdistinct.tail hnext hunfound, Option.none_or] at h
      obtain rfl := Option.some.inj h
      exact ⟨List.mem_cons_self, findPartition_of_findIdx hi hidx⟩
    · rw [if_neg hidx, Option.or_none] at h
      rw [if_neg hidx] at hnext
      obtain ⟨hmem, hfound⟩ := ih hdistinct.tail hnext h
      exact ⟨List.mem_cons_of_mem _ hmem, hfound⟩

/-- A partition of the list is as it was, or overwritten by a subvolume that found it. -/
theorem keptBy_appended (hdistinct : DistinctSubvolumes subvols)
    (h : appendSubvolumes subvols partitions = .ok appended) (hi : partitions[i]? = some part) :
    ∃ part', appended[i]? = some part' ∧ KeptBy subvols part part' := by
  refine ⟨_, appendSubvolumes_getElem? h hi, ?_⟩
  rcases hrequest : lastRequest subvols partitions i with _ | request
  · exact .inl rfl
  · obtain ⟨hmem, hfound⟩ := findPartition_of_lastRequest hdistinct hi hrequest
    exact .inr ⟨request, hmem, hfound, rfl⟩

/-- After a round that ends, some partition is at the mountpoint of the subvolume, with its name. -/
theorem exists_written (h : foundBy subvol partitions ≠ none ∨ HasRoot partitions) :
    ∃ part ∈ nextPartitions subvol partitions,
      part.mountpoint = subvol.mountpoint ∧ part.subvolume = some subvol.subvolume := by
  rcases hfound : foundBy subvol partitions with _ | part
  · have hany : ¬ (partitions.any fun part => findPartition part subvol) = true := by
      rw [any_iff_foundBy, hfound]
      simp
    have hroot := h.resolve_left (not_not.mpr hfound)
    rw [nextPartitions, if_neg hany]
    rcases hfind : findRootBtrfsPart partitions with _ | root
    · exact absurd hroot (findRootBtrfsPart_eq_none.mp hfind)
    · exact ⟨cloneRoot subvol root, by simp, rfl, rfl⟩
  · obtain ⟨before, after, -, -, -, hnext⟩ := nextPartitions_of_foundBy hfound
    rw [hnext]
    exact ⟨overwrite subvol part, by simp, rfl, rfl⟩

/-- **Every requested subvolume is in the list in the end**: later ones do not undo it. -/
theorem exists_requested (hdistinct : DistinctSubvolumes subvols)
    (h : appendSubvolumes subvols partitions = .ok appended) :
    ∀ subvol ∈ subvols, ∃ part ∈ appended,
      part.mountpoint = subvol.mountpoint ∧ part.subvolume = some subvol.subvolume := by
  induction subvols generalizing partitions with
  | nil => simp
  | cons subvol subvols ih =>
    obtain ⟨hround, hrest⟩ := appendSubvolumes_of_cons h
    intro s hs
    rcases List.mem_cons.mp hs with rfl | hs
    · obtain ⟨part, hmem, hmount, hname⟩ := exists_written hround
      obtain ⟨i, hi⟩ := List.mem_iff_getElem?.mp hmem
      have hunfound := unfound_of_written hdistinct hmount hname
      have hkept := appendSubvolumes_getElem? hrest hi
      rw [lastRequest_of_unfound hdistinct.tail hi hunfound] at hkept
      exact ⟨part, List.mem_of_getElem? hkept, hmount, hname⟩
    · exact ih hdistinct.tail hrest s hs

end Distinct

/-! ## The root stays -/

theorem mem_modifyFirst {α : Type} {p : α → Bool} {f : α → α} {l : List α} {a : α}
    (h : a ∈ modifyFirst p f l) : a ∈ l ∨ ∃ b ∈ l, p b = true ∧ a = f b := by
  induction l with
  | nil => cases h
  | cons b l ih =>
    rw [modifyFirst] at h
    split_ifs at h with hb
    · rcases List.mem_cons.mp h with rfl | h
      · exact .inr ⟨b, List.mem_cons_self, hb, rfl⟩
      · exact .inl (List.mem_cons_of_mem _ h)
    · rcases List.mem_cons.mp h with rfl | h
      · exact .inl List.mem_cons_self
      · rcases ih h with h | ⟨c, hc, hpc, hac⟩
        · exact .inl (List.mem_cons_of_mem _ h)
        · exact .inr ⟨c, List.mem_cons_of_mem _ hc, hpc, hac⟩

section Anchor

variable {subvol : BtrfsSubvolume} {subvols : List BtrfsSubvolume}
  {before after : List Partition} {root : Partition}

theorem NameAtRoot.tail (h : NameAtRoot (subvol :: subvols) root) : NameAtRoot subvols root :=
  fun s hs => h s (List.mem_cons_of_mem _ hs)

theorem Donor.mono {donor : Partition} (h : Donor subvols before root donor) :
    Donor (subvol :: subvols) before root donor := by
  refine h.imp_right fun ⟨hmem, hfstype, hat⟩ => ⟨hmem, hfstype, hat.imp_right ?_⟩
  rintro ⟨s, hs, hmount, hname⟩
  exact ⟨s, List.mem_cons_of_mem _ hs, hmount, hname⟩

/-- The root is found by the subvolume for "/" only. -/
theorem mountpoint_of_findPartition_root (hroot : isRootBtrfsPart root = true)
    (hname : NameAtRoot (subvol :: subvols) root) (h : findPartition root subvol = true) :
    subvol.mountpoint = ['/'] := by
  simp only [findPartition, Bool.or_eq_true, decide_eq_true_eq] at h
  rcases h with h | h
  · exact h.symm.trans (isRootBtrfsPart_iff.mp hroot).1
  · exact hname subvol List.mem_cons_self h

/-- **One round leaves the root where it stands**, and no donors that were none before. -/
theorem nextPartitions_root (hroot : isRootBtrfsPart root = true)
    (hdistinct : DistinctSubvolumes (subvol :: subvols))
    (hname : NameAtRoot (subvol :: subvols) root) :
    ∃ before' root' after',
      nextPartitions subvol (before ++ root :: after) = before' ++ root' :: after' ∧
      isRootBtrfsPart root' = true ∧ NameAtRoot subvols root' ∧
      ∀ donor', Donor subvols before' root' donor' →
        ∃ donor, Donor (subvol :: subvols) before root donor ∧ frame donor' = frame donor := by
  set p : Partition → Bool := fun part => findPartition part subvol with hp
  have hsame : ∀ donor', Donor subvols before root donor' →
      ∃ donor, Donor (subvol :: subvols) before root donor ∧ frame donor' = frame donor :=
    fun donor' h => ⟨donor', h.mono, rfl⟩
  rw [nextPartitions]
  by_cases hany : ((before ++ root :: after).any p) = true
  swap
  · rw [if_neg hany]
    rcases findRootBtrfsPart (before ++ root :: after) with _ | donor
    · exact ⟨before, root, after, rfl, hroot, hname.tail, hsame⟩
    · exact ⟨before, root, after ++ [cloneRoot subvol donor], by simp, hroot, hname.tail, hsame⟩
  rw [if_pos hany, modifyFirst_append_eq_ite]
  by_cases hbefore : before.any p = true
  -- A partition before the root is overwritten, and may have become a donor.
  · rw [if_pos hbefore]
    refine ⟨_, root, after, rfl, hroot, hname.tail, ?_⟩
    rintro donor' (rfl | ⟨hmem, hfstype, hat⟩)
    · exact ⟨donor', .inl rfl, rfl⟩
    rcases mem_modifyFirst hmem with hbefore | ⟨donor, hdonor, hfound, rfl⟩
    · exact ⟨donor', Donor.mono (.inr ⟨hbefore, hfstype, hat⟩), rfl⟩
    · refine ⟨donor, .inr ⟨hdonor, hfstype, ?_⟩, rfl⟩
      have hmount : subvol.mountpoint = ['/'] := by
        rcases hat with hmount | ⟨s, hs, hmount, hname'⟩
        · exact hmount
        · have hne := hdistinct.1
          rw [List.map_cons, List.nodup_cons] at hne
          exact absurd (Option.some.inj hname' ▸ List.mem_map_of_mem hs) hne.1
      simp only [findPartition, Bool.or_eq_true, decide_eq_true_eq] at hfound
      exact hfound.imp (fun h => h.trans hmount) fun h => ⟨subvol, List.mem_cons_self, hmount, h⟩
  rw [if_neg hbefore]
  by_cases hpart : p root = true
  · have hmount := mountpoint_of_findPartition_root hroot hname hpart
    refine ⟨before, overwrite subvol root, after, ?_, ?_, ?_, ?_⟩
    · rw [modifyFirst, if_pos hpart]
    · exact isRootBtrfsPart_iff.mpr ⟨hmount, (isRootBtrfsPart_iff.mp hroot).2⟩
    · intro s hs hname'
      have hne := hdistinct.1
      rw [List.map_cons, List.nodup_cons] at hne
      exact absurd (Option.some.inj hname' ▸ List.mem_map_of_mem hs) hne.1
    · rintro donor' (rfl | h)
      · exact ⟨root, .inl rfl, rfl⟩
      · exact hsame donor' (.inr h)
  · refine ⟨before, root, modifyFirst p (overwrite subvol) after, ?_, hroot, hname.tail, hsame⟩
    rw [modifyFirst, if_neg hpart]

/-- **The loop ends, and clones donors only.** -/
theorem appendSubvolumes_root (hroot : isRootBtrfsPart root = true)
    (hdistinct : DistinctSubvolumes subvols) (hname : NameAtRoot subvols root) :
    (∃ appended, appendSubvolumes subvols (before ++ root :: after) = .ok appended) ∧
      ∀ r ∈ clonedRoots subvols (before ++ root :: after),
        ∃ donor, Donor subvols before root donor ∧ frame r = frame donor := by
  induction subvols generalizing before root after with
  | nil => exact ⟨⟨_, rfl⟩, by simp [clonedRoots]⟩
  | cons subvol subvols ih =>
    have hhas : HasRoot (before ++ root :: after) := ⟨root, by simp, hroot⟩
    obtain ⟨before', root', after', hnext, hroot', hname', hdonors⟩ :=
      @nextPartitions_root subvol subvols before after root hroot hdistinct hname
    obtain ⟨hends, hclones⟩ := @ih before' after' root' hroot' hdistinct.tail hname'
    rw [appendSubvolumes_cons subvols (.inr hhas), clonedRoots_cons subvol subvols (.inr hhas), hnext]
    refine ⟨hends, fun r hr => ?_⟩
    rcases List.mem_append.mp hr with hr | hr
    · split_ifs at hr
      · have hfind := Option.mem_toList.mp hr
        have hisRoot := isRootBtrfsPart_iff.mp (List.find?_some hfind)
        refine ⟨r, ?_, rfl⟩
        rw [findRootBtrfsPart, List.find?_append, List.find?_cons_of_pos hroot] at hfind
        rcases hbefore : before.find? isRootBtrfsPart with _ | r'
        · rw [hbefore, Option.none_or] at hfind
          exact .inl (Option.some.inj hfind).symm
        · rw [hbefore, Option.some_or] at hfind
          obtain rfl := Option.some.inj hfind
          exact .inr ⟨List.mem_of_find?_eq_some hbefore, hisRoot.2, .inl hisRoot.1⟩
      · cases hr
    · obtain ⟨donor', hdonor', hframe'⟩ := hclones r hr
      obtain ⟨donor, hdonor, hframe⟩ := hdonors donor' hdonor'
      exact ⟨donor, hdonor, hframe'.trans hframe⟩

end Anchor

/-! ## The result -/

/-- What the result is: every requested subvolume is in it, no partition is missing, each is as it
was or overwritten by a subvolume that found it, and what is new copies the root, or a btrfs
partition before it with the name that is asked for at "/"; the whole is sorted by device. Without
subvolumes the list is as it was. -/
structure SubvolumesAdded (partitions : List Partition) (root : Partition)
    (subvols : List BtrfsSubvolume) (result : List Partition) : Prop where
  requested : ∀ subvol ∈ subvols, ∃ part ∈ result,
    part.mountpoint = subvol.mountpoint ∧ part.subvolume = some subvol.subvolume
  kept : ∃ appended : List Partition, result.Perm appended ∧
    (∀ (i : Nat) (part : Partition), partitions[i]? = some part →
      ∃ part', appended[i]? = some part' ∧ KeptBy subvols part part') ∧
    ∀ part ∈ appended.drop partitions.length, ∃ donor, CopyOf donor part ∧
      (donor = root ∨ donor.fstype = lit "btrfs" ∧ NamedForRoot subvols donor ∧
        donor ∈ partitions.takeWhile fun part => !isRootBtrfsPart part)
  sorted : subvols ≠ [] → result.Pairwise fun a b => a.device ≤ b.device
  unchanged : subvols = [] → result = partitions

section Result

variable {S : Sorter Partition} {partitions : List Partition} {subvols : List BtrfsSubvolume}
  {root : Partition}

theorem copyOf_of_frame {donor part : Partition} (h : frame part = cloneFrame donor) :
    CopyOf donor part := by
  have hfield {α : Type} (f : Partition → α) (hf : ∀ q, f (frame q) = f q)
      (hf' : ∀ q, f (cloneFrame q) = f q) : f part = f donor := by
    rw [← hf, h, hf']
  exact ⟨hfield (·.device) (fun _ => rfl) fun _ => rfl, hfield (·.fstype) (fun _ => rfl) fun _ => rfl,
    hfield (·.uuidStr) (fun _ => rfl) fun _ => rfl, hfield (·.mountOpts) (fun _ => rfl) fun _ => rfl,
    hfield (·.luksMapperName) (fun _ => rfl) fun _ => rfl,
    hfield (·.luksUuid) (fun _ => rfl) fun _ => rfl,
    hfield (·.luksPassphrase) (fun _ => rfl) fun _ => rfl⟩

/-- With a root the function is the loop and the sort. -/
theorem btrfsAppendSubvolumes_of_root (hroot : HasRoot partitions) (hne : subvols ≠ []) :
    btrfsAppendSubvolumes S partitions subvols =
      (appendSubvolumes subvols partitions).map fun appended =>
        (true, S.byKey Partition.device appended) := by
  have hsome : (findRootBtrfsPart partitions).isNone = false := by
    rw [Option.isNone_eq_false_iff, Option.isSome_iff_ne_none, Ne, findRootBtrfsPart_eq_none]
    exact not_not.mpr hroot
  rw [btrfsAppendSubvolumes, if_neg (by simpa using hne), if_neg (by simp [hsome])]
  cases appendSubvolumes subvols partitions <;> rfl

/-- **The result, when names and mountpoints are distinct**, and what is answered without a root. -/
theorem btrfsAppendSubvolumes_added (S : Sorter Partition) (partitions : List Partition)
    (subvols : List BtrfsSubvolume) :
    (∀ root, findRootBtrfsPart partitions = some root → DistinctSubvolumes subvols →
      NameAtRoot subvols root → ∃ result,
        btrfsAppendSubvolumes S partitions subvols = .ok (true, result) ∧
          SubvolumesAdded partitions root subvols result) ∧
    (¬ HasRoot partitions → subvols ≠ [] →
      btrfsAppendSubvolumes S partitions subvols = .ok (false, partitions)) := by
  constructor
  · intro root hroot hdistinct hname
    obtain ⟨hisRoot, before, after, rfl, hbefore⟩ := List.find?_eq_some_iff_append.mp hroot
    have htake : (before ++ root :: after).takeWhile (fun part => !isRootBtrfsPart part) = before := by
      rw [List.takeWhile_append_of_pos hbefore, List.takeWhile_cons_of_neg (by simp [hisRoot]),
        List.append_nil]
    obtain ⟨⟨appended, hends⟩, hclones⟩ :=
      @appendSubvolumes_root subvols before after root hisRoot hdistinct hname
    -- No partition before the root is one, so a donor before it has the name that is asked for.
    have hcopies : ∀ part ∈ appended.drop (before ++ root :: after).length, ∃ donor, CopyOf donor part ∧
        (donor = root ∨ donor.fstype = lit "btrfs" ∧ NamedForRoot subvols donor ∧
          donor ∈ (before ++ root :: after).takeWhile fun part => !isRootBtrfsPart part) := by
      intro part hpart
      have hframe := List.mem_map_of_mem (f := frame) hpart
      rw [appendSubvolumes_drop_frame hends] at hframe
      obtain ⟨r, hr, hclone⟩ := List.mem_map.mp hframe
      obtain ⟨donor, hdonor, hsame⟩ := hclones r hr
      refine ⟨donor, copyOf_of_frame ?_, ?_⟩
      · rw [← hclone, cloneFrame, cloneFrame, hsame]
      · refine hdonor.imp_right fun ⟨hmem, hfstype, hat⟩ => ⟨hfstype, ?_, htake.symm ▸ hmem⟩
        refine hat.resolve_left fun hmount => ?_
        have hnot := hbefore donor hmem
        rw [isRootBtrfsPart_iff.mpr ⟨hmount, hfstype⟩] at hnot
        cases hnot
    have hkept := fun (i : Nat) (part : Partition) hi =>
      @keptBy_appended subvols _ _ part i hdistinct hends hi
    have hrequested := exists_requested hdistinct hends
    by_cases hempty : subvols = []
    · subst hempty
      obtain rfl := Except.ok.inj hends
      exact ⟨_, rfl, ⟨hrequested, ⟨_, .refl _, hkept, hcopies⟩, absurd rfl, fun _ => rfl⟩⟩
    · have hhas : HasRoot (before ++ root :: after) := ⟨root, by simp, hisRoot⟩
      refine ⟨S.byKey Partition.device appended, ?_, ⟨?_, ⟨appended, S.byKey_perm _ _, hkept,
        hcopies⟩, fun _ => S.byKey_ordered _ _, fun h => absurd h hempty⟩⟩
      · rw [btrfsAppendSubvolumes_of_root hhas hempty, hends]
        rfl
      · intro subvol hsubvol
        obtain ⟨part, hpart, hwritten⟩ := hrequested subvol hsubvol
        exact ⟨part, (S.mem_byKey _).mpr hpart, hwritten⟩
  · intro hroot hne
    rw [btrfsAppendSubvolumes, if_neg (by simpa using hne), findRootBtrfsPart_eq_none.mpr hroot]
    rfl

end Result

/-- The usual subvolumes for "/" and "/home". -/
def usualSubvolumes : List BtrfsSubvolume := [⟨lit "/@", ['/']⟩, ⟨lit "/@home", lit "/home"⟩]

theorem distinct_usualSubvolumes : DistinctSubvolumes usualSubvolumes := by
  simp [DistinctSubvolumes, usualSubvolumes, lit_eq]

/-- A partition on another disk. -/
def dataPartition (fstype mountpoint : Str) (subvolume : Option Str) : Partition :=
  { Partition.empty with fstype, mountpoint, device := lit "/dev/sdb1", subvolume }

theorem findRootBtrfsPart_namedRoot (rest : List Partition) (subvolume : Option Str) :
    findRootBtrfsPart (namedRoot subvolume :: rest) = some (namedRoot subvolume) :=
  List.find?_cons_of_pos (isRootBtrfsPart_iff.mpr ⟨rfl, rfl⟩)

theorem nameAtRoot_namedRoot (subvols : List BtrfsSubvolume) : NameAtRoot subvols (namedRoot none) := by
  intro subvol _ hname
  cases hname

theorem btrfsAppendSubvolumes_added_usual :
    ∃ result, btrfsAppendSubvolumes .stable [namedRoot none] usualSubvolumes = .ok (true, result) ∧
      SubvolumesAdded [namedRoot none] (namedRoot none) usualSubvolumes result :=
  (btrfsAppendSubvolumes_added .stable [namedRoot none] usualSubvolumes).1 (namedRoot none)
    (findRootBtrfsPart_namedRoot [] none) distinct_usualSubvolumes
    (nameAtRoot_namedRoot usualSubvolumes)

/-- Without subvolumes a list that is not sorted stays as it is; and a btrfs partition before the
root, which the subvolume for "/" takes over, is cloned in its place. -/
theorem btrfsAppendSubvolumes_unsorted :
    let root := namedRoot none
    let data := dataPartition (lit "btrfs") (lit "/data") (some (lit "/@"))
    (btrfsAppendSubvolumes .stable [data, root] [] = .ok (true, [data, root]) ∧
      ¬ [data, root].Pairwise fun a b => a.device ≤ b.device) ∧
    findRootBtrfsPart [data, root] = some root ∧ NameAtRoot usualSubvolumes root ∧
      ∃ home, appendSubvolumes usualSubvolumes [data, root] =
          .ok [overwrite ⟨lit "/@", ['/']⟩ data, root, home] ∧
        home.mountpoint = lit "/home" ∧ home.device = data.device ∧ data.device ≠ root.device := by
  intro root data
  have hdevices : lit "/dev/sda2" < lit "/dev/sdb1" := by
    rw [lit_ofList, lit_ofList]
    decide
  have hdata : isRootBtrfsPart data = false := by
    simp [isRootBtrfsPart, data, dataPartition, lit_eq]
  have hroot : isRootBtrfsPart root = true := isRootBtrfsPart_iff.mpr ⟨rfl, rfl⟩
  refine ⟨⟨rfl, ?_⟩, ?_, nameAtRoot_namedRoot usualSubvolumes,
    cloneRoot ⟨lit "/@home", lit "/home"⟩ data, ?_, rfl, rfl, hdevices.ne'⟩
  · intro hsorted
    exact not_le_of_gt hdevices ((List.pairwise_cons.mp hsorted).1 root (List.mem_singleton_self _))
  · rw [findRootBtrfsPart, List.find?_cons_of_neg (by simp [hdata]), List.find?_cons_of_pos hroot]
  · simp [usualSubvolumes, appendSubvolumes, findPartition, modifyFirst, overwrite, data, root,
      dataPartition, namedRoot, findRootBtrfsPart, isRootBtrfsPart, cloneRoot, lit_eq]

/-! ## Other file systems -/

/-- The partition is not of the file system of the root. -/
def Foreign (root : Option Partition) (part : Partition) : Prop :=
  part.fstype ≠ lit "btrfs" ∨ some part.device ≠ root.map Partition.device

/-- After the loop every partition of another file system is as it was, and none is new. -/
def ForeignKept (partitions appended : List Partition) : Prop :=
  (∀ (i : Nat) (part : Partition), partitions[i]? = some part →
    Foreign (findRootBtrfsPart partitions) part → appended[i]? = some part) ∧
  ∀ part ∈ appended.drop partitions.length, ¬ Foreign (findRootBtrfsPart partitions) part

/-- The last subvolume that finds a partition of another file system asks for the mountpoint and the
subvolume it has, and every root that is cloned is on the device of the first. -/
def OwnRequests (partitions : List Partition) (subvols : List BtrfsSubvolume) : Prop :=
  (∀ (i : Nat) (part : Partition), partitions[i]? = some part →
    Foreign (findRootBtrfsPart partitions) part →
    ∀ request, lastRequest subvols partitions i = some request →
      request.mountpoint = part.mountpoint ∧ some request.subvolume = part.subvolume) ∧
  ∀ root ∈ clonedRoots subvols partitions,
    some root.device = (findRootBtrfsPart partitions).map Partition.device

section Others

variable {partitions appended : List Partition} {subvols : List BtrfsSubvolume}

theorem isRootBtrfsPart_of_mem_clonedRoots {root : Partition} (h : root ∈ clonedRoots subvols partitions) :
    isRootBtrfsPart root = true := by
  induction subvols generalizing partitions with
  | nil => cases h
  | cons subvol subvols ih =>
    rw [clonedRoots] at h
    split_ifs at h
    · exact ih h
    · rcases hroot : findRootBtrfsPart partitions with _ | root'
      · rw [hroot] at h
        cases h
      · rw [hroot] at h
        rcases List.mem_cons.mp h with rfl | h
        · exact List.find?_some hroot
        · exact ih h

theorem afterRequest_eq_self_iff {request : Option BtrfsSubvolume} {part : Partition} :
    afterRequest request part = part ↔ ∀ subvol, request = some subvol →
      subvol.mountpoint = part.mountpoint ∧ some subvol.subvolume = part.subvolume := by
  rcases request with _ | subvol
  · simp [afterRequest]
  · rcases part
    simp [afterRequest, overwrite]

/-- A copy is of another file system than the root's exactly when the root it copies is on another
device. -/
theorem foreign_of_frame {root : Option Partition} {cloned part : Partition}
    (hcloned : isRootBtrfsPart cloned = true) (h : frame part = cloneFrame cloned) :
    Foreign root part ↔ some cloned.device ≠ root.map Partition.device := by
  obtain ⟨hdevice, hfstype, -⟩ := copyOf_of_frame h
  rw [Foreign, hdevice, hfstype]
  exact or_iff_right (not_not.mpr (isRootBtrfsPart_iff.mp hcloned).2)

/-- **When the partitions of other file systems are kept.** -/
theorem foreignKept_iff {S : Sorter Partition} {result : List Partition}
    (hok : btrfsAppendSubvolumes S partitions subvols = .ok (true, result)) :
    (∃ appended, appendSubvolumes subvols partitions = .ok appended ∧ result.Perm appended ∧
      ForeignKept partitions appended) ↔ OwnRequests partitions subvols := by
  have hloop : ∃ appended, appendSubvolumes subvols partitions = .ok appended ∧
      result.Perm appended := by
    rw [btrfsAppendSubvolumes] at hok
    split_ifs at hok with hempty hroot
    · obtain rfl := List.isEmpty_iff.mp hempty
      obtain rfl := (Prod.mk.inj (Except.ok.inj hok)).2
      exact ⟨_, rfl, .refl _⟩
    · simp at hok
    · obtain ⟨appended, hends, hrest⟩ := bind_eq_ok.mp hok
      obtain rfl := (Prod.mk.inj (Except.ok.inj hrest)).2
      exact ⟨appended, hends, S.byKey_perm _ _⟩
  obtain ⟨appended, hends, hperm⟩ := hloop
  have hfirst : ForeignKept partitions appended ↔ OwnRequests partitions subvols := by
    rw [ForeignKept, OwnRequests]
    refine and_congr ?_ ?_
    · refine forall_congr' fun i => forall_congr' fun part => forall_congr' fun hi => ?_
      refine imp_congr_right fun _ => ?_
      rw [appendSubvolumes_getElem? hends hi, Option.some.injEq, afterRequest_eq_self_iff]
    · have hframe := appendSubvolumes_drop_frame hends
      constructor
      · intro hnew root hroot
        have hmem := List.mem_map_of_mem (f := cloneFrame) hroot
        rw [← hframe] at hmem
        obtain ⟨part, hpart, hcopy⟩ := List.mem_map.mp hmem
        have hnot := hnew part hpart
        rwa [foreign_of_frame (isRootBtrfsPart_of_mem_clonedRoots hroot) hcopy, not_not] at hnot
      · intro hroots part hpart
        have hmem := List.mem_map_of_mem (f := frame) hpart
        rw [hframe] at hmem
        obtain ⟨root, hroot, hcopy⟩ := List.mem_map.mp hmem
        rw [foreign_of_frame (isRootBtrfsPart_of_mem_clonedRoots hroot) hcopy.symm, not_not]
        exact hroots root hroot
  constructor
  · rintro ⟨appended', hends', -, hkept⟩
    obtain rfl := Except.ok.inj (hends.symm.trans hends')
    exact hfirst.mp hkept
  · intro hown
    exact ⟨appended, hends, hperm, hfirst.mpr hown⟩

end Others

/-- A separate ext4 partition at "/data", which no subvolume asks for, is kept. -/
theorem foreignKept_iff_data :
    let data := dataPartition (lit "ext4") (lit "/data") none
    let partitions := [namedRoot none, data]
    Foreign (findRootBtrfsPart partitions) data ∧
      ∃ appended, appendSubvolumes usualSubvolumes partitions = .ok appended ∧
        ForeignKept partitions appended ∧ appended[1]? = some data := by
  intro data partitions
  have hroot := findRootBtrfsPart_namedRoot [data] none
  have hforeign : Foreign (findRootBtrfsPart partitions) data := by
    refine .inl ?_
    simp [data, dataPartition, lit_eq]
  have hends : appendSubvolumes usualSubvolumes partitions =
      .ok [overwrite ⟨lit "/@", ['/']⟩ (namedRoot none), data,
        cloneRoot ⟨lit "/@home", lit "/home"⟩ (overwrite ⟨lit "/@", ['/']⟩ (namedRoot none))] := by
    simp [usualSubvolumes, appendSubvolumes, findPartition, modifyFirst, overwrite, data, partitions,
      dataPartition, namedRoot, findRootBtrfsPart, isRootBtrfsPart, cloneRoot, lit_eq]
  have hok := @btrfsAppendSubvolumes_of_root .stable partitions usualSubvolumes
    ⟨namedRoot none, List.mem_cons_self, isRootBtrfsPart_iff.mpr ⟨rfl, rfl⟩⟩ (List.cons_ne_nil _ _)
  rw [hends] at hok
  have hclones : clonedRoots usualSubvolumes partitions =
      [overwrite ⟨lit "/@", ['/']⟩ (namedRoot none)] := by
    simp [usualSubvolumes, clonedRoots, findPartition, modifyFirst, overwrite, data, partitions,
      dataPartition, namedRoot, findRootBtrfsPart, isRootBtrfsPart, lit_eq]
  have hlast : lastRequest usualSubvolumes partitions 1 = none := by
    simp [usualSubvolumes, lastRequest, nextPartitions, findPartition, modifyFirst, overwrite, data,
      partitions, dataPartition, namedRoot, List.findIdx_cons, lit_eq]
  have hown : OwnRequests partitions usualSubvolumes := by
    refine ⟨fun i part hi hpart request hrequest => ?_, fun root hmem => ?_⟩
    · rcases i with _ | _ | i
      · obtain rfl := Option.some.inj hi
        rw [hroot] at hpart
        simp [Foreign, namedRoot] at hpart
      · rw [hlast] at hrequest
        cases hrequest
      · cases hi
    · rw [hclones] at hmem
      rw [List.mem_singleton.mp hmem, hroot]
      rfl
  obtain ⟨appended, hends, -, hkept⟩ := (foreignKept_iff hok).mpr hown
  exact ⟨hforeign, appended, hends, hkept, hkept.1 1 data rfl hforeign⟩

/-- A separate ext4 partition at "/home" is given the subvolume. -/
theorem foreignKept_home :
    let home := dataPartition (lit "ext4") (lit "/home") none
    let partitions := [namedRoot none, home]
    appendSubvolumes usualSubvolumes partitions =
        .ok [overwrite ⟨lit "/@", ['/']⟩ (namedRoot none),
          overwrite ⟨lit "/@home", lit "/home"⟩ home] ∧
      Foreign (findRootBtrfsPart partitions) home ∧
      ¬ ∃ appended, appendSubvolumes usualSubvolumes partitions = .ok appended ∧
        ForeignKept partitions appended := by
  intro home partitions
  have hends : appendSubvolumes usualSubvolumes partitions =
      .ok [overwrite ⟨lit "/@", ['/']⟩ (namedRoot none),
        overwrite ⟨lit "/@home", lit "/home"⟩ home] := by
    simp [usualSubvolumes, appendSubvolumes, findPartition, modifyFirst, overwrite, home, partitions,
      dataPartition, namedRoot, lit_eq]
  have hforeign : Foreign (findRootBtrfsPart partitions) home := by
    refine .inl ?_
    simp [home, dataPartition, lit_eq]
  refine ⟨hends, hforeign, ?_⟩
  rintro ⟨appended, hends', hkept, -⟩
  obtain rfl := Except.ok.inj (hends.symm.trans hends')
  have hsame := congrArg Partition.subvolume (Option.some.inj (hkept 1 home rfl hforeign))
  cases hsame

end CliInstaller
