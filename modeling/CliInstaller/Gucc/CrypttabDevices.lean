import CliInstaller.Gucc.FstabCrypttab

/-!
# The devices of crypttab

One partition of each device is kept, and which one is for the two sorts to decide: the first sort,
by mountpoint, need not survive the second, by device. The entries tell the root from the other
mountpoints, so the content depends on the choice where an encrypted root shares its device.

## Main definitions

* `PlacesDistinct`: a device and a mountpoint determine the partition
* `FirstOfDevice`: the partition with the smallest mountpoint of its device
* `CrypttabDetermined`: the content is that of the representatives, in any order of the partitions
* `RootAlone`: the condition on the partitions

## Main results

* `map_device_partitionsFiltered`: the devices of the kept partitions
* `crypttabDetermined_iff`: when the content is determined
-/

namespace CliInstaller

open Sorting

/-- No two partitions have both the same device and the same mountpoint. -/
def PlacesDistinct (partitions : List Partition) : Prop :=
  partitions.Pairwise fun p q => p.device = q.device → p.mountpoint ≠ q.mountpoint

/-- The partition has the smallest mountpoint among the partitions of its device. -/
def FirstOfDevice (partitions : List Partition) (partition : Partition) : Prop :=
  partition ∈ partitions ∧
    ∀ q ∈ partitions, q.device = partition.device → partition.mountpoint ≤ q.mountpoint

/-- The content has one entry for each device that is encrypted, that of the partition with the
smallest mountpoint, and no other; the entries are ordered by device; and the content is the same
for every order of the partitions and every result of the sorts. -/
def CrypttabDetermined (partitions : List Partition) (crypttabOpts : Str) : Prop :=
  ∃ representatives : List Partition,
    (representatives.Pairwise fun p q => p.device < q.device) ∧
    (∀ p, p ∈ representatives ↔ FirstOfDevice partitions p) ∧
    (∀ p ∈ representatives, (crypttabLine partitions crypttabOpts p).isSome ↔ p.Encrypted) ∧
    ∀ S partitions', partitions'.Perm partitions →
      generateCrypttabContent S partitions' crypttabOpts =
        crypttabHeader ++ (representatives.filterMap
          (crypttabLine partitions crypttabOpts)).flatMap CrypttabEntry.text

/-- The scan for "/bool" succeeds, or no encrypted partition at "/" shares its device with a
partition at another mountpoint. -/
def RootAlone (partitions : List Partition) : Prop :=
  MapperAt partitions (lit "/bool") ∨
    ∀ p ∈ partitions, p.mountpoint = ['/'] → p.Encrypted →
      ∀ q ∈ partitions, q.device = p.device → q.mountpoint = ['/']

/-! ## The kept partitions -/

section Kept

variable {S S' : Sorter Partition} {partitions partitions' : List Partition}

theorem partitionsFiltered_ordered :
    (partitionsFiltered S partitions).Pairwise fun p q => p.device < q.device :=
  uniqueBy_ordered (S.byKey_ordered _ _)

/-- **The devices of the kept partitions** do not depend on the sorts. -/
theorem map_device_partitionsFiltered (h : partitions'.Perm partitions) :
    (partitionsFiltered S' partitions').map Partition.device =
      (partitionsFiltered S partitions).map Partition.device := by
  refine map_uniqueBy_eq (S'.byKey_ordered _ _) (S.byKey_ordered _ _) fun device => ?_
  simp only [List.mem_map, Sorter.mem_byKey, h.mem_iff]

theorem eq_of_mem_partitionsFiltered {p q : Partition} (hp : p ∈ partitionsFiltered S partitions)
    (hq : q ∈ partitionsFiltered S partitions) (h : p.device = q.device) : p = q := by
  have hordered : (partitionsFiltered S partitions).Pairwise fun p q => p.device < q.device :=
    partitionsFiltered_ordered
  have hnodup := List.pairwise_map.mpr (hordered.imp fun h => h.ne)
  exact List.inj_on_of_nodup_map hnodup hp hq h

/-- A representative of a device is determined by it. -/
theorem FirstOfDevice.eq (hplaces : PlacesDistinct partitions) {p q : Partition}
    (hp : FirstOfDevice partitions p) (hq : FirstOfDevice partitions q) (h : p.device = q.device) :
    p = q := by
  have hm : p.mountpoint = q.mountpoint :=
    le_antisymm (hp.2 q hq.1 h.symm) (hq.2 p hp.1 h)
  by_contra hne
  have : Std.Symm fun p q : Partition => p.device = q.device → p.mountpoint ≠ q.mountpoint :=
    ⟨fun _ _ hdiff h => (hdiff h.symm).symm⟩
  exact List.Pairwise.forall hplaces hp.1 hq.1 hne h hm

/-- The stable sorts keep the partition with the smallest mountpoint. -/
theorem mem_partitionsFiltered_stable (hplaces : PlacesDistinct partitions) {p : Partition} :
    p ∈ partitionsFiltered .stable partitions ↔ FirstOfDevice partitions p := by
  have hkept : ∀ q ∈ partitions, ∃ r ∈ partitionsFiltered .stable partitions,
      r.device = q.device ∧ FirstOfDevice partitions r := by
    intro q hq
    set sorted := Sorter.stable.byKey Partition.mountpoint partitions with hsorted
    obtain ⟨r, hr⟩ := Option.isSome_iff_exists.mp (List.find?_isSome.mpr
      ⟨q, (by simpa [hsorted] using hq), decide_eq_true rfl⟩ :
        (sorted.find? fun p => p.device = q.device).isSome)
    have hdevice : r.device = q.device := by simpa using List.find?_some hr
    have hfirst : r ∈ partitionsFiltered .stable partitions := by
      refine mem_uniqueBy_of_find? (k := q.device) ?_
      rw [← hr, hsorted]
      convert Sorter.find?_stable_byKey _ _
    refine ⟨r, hfirst, hdevice, mem_partitionsFiltered hfirst, fun p hp hpdevice => ?_⟩
    obtain ⟨-, front, back, hsplit, hfront⟩ := List.find?_eq_some_iff_append.mp hr
    have hpsorted : p ∈ front ++ r :: back := by rw [← hsplit, hsorted]; simpa using hp
    have hordered := Sorter.stable.byKey_ordered Partition.mountpoint partitions
    rw [← hsorted, hsplit] at hordered
    rcases List.mem_append.mp hpsorted with hbefore | hafter
    · exact absurd (hpdevice.trans hdevice) (by simpa using hfront p hbefore)
    · rcases List.mem_cons.mp hafter with rfl | hafter
      · exact le_rfl
      · exact (List.pairwise_cons.mp (List.pairwise_append.mp hordered).2.1).1 p hafter
  constructor
  · intro hp
    obtain ⟨r, hr, hdevice, hrep⟩ := hkept p (mem_partitionsFiltered hp)
    rwa [eq_of_mem_partitionsFiltered hp hr hdevice.symm]
  · intro hp
    obtain ⟨r, hr, hdevice, hrep⟩ := hkept p hp.1
    rwa [hp.eq hplaces hrep hdevice.symm]

end Kept

/-! ## The lines -/

section Lines

variable {partitions partitions' : List Partition} {crypttabOpts : Str} {p q : Partition}

theorem MapperAt.perm (h : partitions'.Perm partitions) {mountpoint : Str} :
    MapperAt partitions' mountpoint ↔ MapperAt partitions mountpoint := by
  simp only [MapperAt, h.mem_iff]

/-- The two scans do not depend on the order of the partitions. -/
theorem crypttabLine_perm (h : partitions'.Perm partitions) :
    crypttabLine partitions' crypttabOpts = crypttabLine partitions crypttabOpts := by
  have hscan : ∀ mountpoint, anyMapperAt partitions' mountpoint =
      anyMapperAt partitions mountpoint := by
    intro mountpoint
    rw [Bool.eq_iff_iff, anyMapperAt_iff, anyMapperAt_iff, MapperAt.perm h]
  funext p
  rw [crypttabLine, crypttabLine, isRootEncrypted, isRootEncrypted, isBootEncrypted,
    isBootEncrypted, hscan, hscan]

theorem crypttabLine_isSome_iff :
    (crypttabLine partitions crypttabOpts p).isSome ↔ p.Encrypted := by
  constructor
  · intro h
    obtain ⟨entry, hentry⟩ := Option.isSome_iff_exists.mp h
    exact encrypted_of_crypttabEntry hentry
  · rintro ⟨⟨name, hname, hname'⟩, uuid, huuid, huuid'⟩
    rw [crypttabLine, crypttabEntry_of_encrypted _ _ hname hname' huuid huuid']
    rfl

/-- With the same LUKS fields, two partitions have the same line unless only the mountpoint of one
of them is "/" and the scans differ. -/
theorem crypttabLine_congr (hname : p.luksMapperName = q.luksMapperName)
    (huuid : p.luksUuid = q.luksUuid)
    (h : p.Encrypted → MapperAt partitions ['/'] → ¬ MapperAt partitions (lit "/bool") →
      (p.mountpoint = ['/'] ↔ q.mountpoint = ['/'])) :
    crypttabLine partitions crypttabOpts p = crypttabLine partitions crypttabOpts q := by
  by_cases henc : p.Encrypted
  · have h := h henc
    obtain ⟨⟨name, hp, hname'⟩, uuid, hu, huuid'⟩ := henc
    rw [crypttabLine, crypttabLine, crypttabEntry_of_encrypted _ _ hp hname' hu huuid',
      crypttabEntry_of_encrypted _ _ (hname ▸ hp) hname' (huuid ▸ hu) huuid', isRootEncrypted,
      isBootEncrypted]
    rw [← anyMapperAt_iff, ← anyMapperAt_iff] at h
    -- The key file depends on the mountpoint only where root is encrypted and "/bool" is not.
    by_cases hroot : anyMapperAt partitions ['/'] = true <;>
      by_cases hboot : anyMapperAt partitions (lit "/bool") = true <;>
      simp_all
  · have hq : ¬ q.Encrypted := by
      rwa [Partition.Encrypted, ← hname, ← huuid]
    have hnone : ∀ r : Partition, ¬ r.Encrypted →
        crypttabLine partitions crypttabOpts r = none := by
      intro r hr
      rwa [← Option.not_isSome_iff_eq_none, crypttabLine_isSome_iff]
    rw [hnone p henc, hnone q hq]

/-- With the same LUKS fields, two lines are equal or their texts differ before either ends. -/
theorem crypttabLine_eq_or_diverge (hname : p.luksMapperName = q.luksMapperName)
    (huuid : p.luksUuid = q.luksUuid) :
    crypttabLine partitions crypttabOpts p = crypttabLine partitions crypttabOpts q ∨
      ∃ a b, crypttabLine partitions crypttabOpts p = some a ∧
        crypttabLine partitions crypttabOpts q = some b ∧
        ∀ s t, a.text ++ s ≠ b.text ++ t := by
  by_cases henc : p.Encrypted
  · obtain ⟨⟨name, hp, hname'⟩, uuid, hu, huuid'⟩ := henc
    rw [crypttabLine, crypttabLine, crypttabEntry_of_encrypted _ _ hp hname' hu huuid',
      crypttabEntry_of_encrypted _ _ (hname ▸ hp) hname' (huuid ▸ hu) huuid']
    have hdiff : ∀ s t, lit "/crypto_keyfile.bin" ++ s ≠ lit "none" ++ t := by
      intro s t
      simp [lit_eq]
    split_ifs
    · exact .inl rfl
    · refine .inr ⟨_, _, rfl, rfl, fun s t => ?_⟩
      simpa only [CrypttabEntry.text, List.append_assoc, ne_eq, List.append_cancel_left_eq]
        using hdiff _ _
    · refine .inr ⟨_, _, rfl, rfl, fun s t => ?_⟩
      simpa only [CrypttabEntry.text, List.append_assoc, ne_eq, List.append_cancel_left_eq]
        using (hdiff _ _).symm
    · exact .inl rfl
  · exact .inl (crypttabLine_congr hname huuid fun h => absurd h henc)

end Lines

/-- Lists of lines with the same text, whose lines are equal or diverge, are equal. -/
theorem lines_eq_of_text_eq {as bs : List (Option CrypttabEntry)}
    (h : List.Forall₂ (fun a b => a = b ∨ ∃ a' b', a = some a' ∧ b = some b' ∧
      ∀ s t, a'.text ++ s ≠ b'.text ++ t) as bs)
    (htext : (as.filterMap id).flatMap CrypttabEntry.text =
      (bs.filterMap id).flatMap CrypttabEntry.text) : as = bs := by
  induction h with
  | nil => rfl
  | @cons a b as bs hab _ ih =>
    rcases hab with rfl | ⟨a', b', rfl, rfl, hdiff⟩
    · cases a with
      | none => rw [ih (by simpa using htext)]
      | some entry => rw [ih (by simpa using htext)]
    · exact absurd (by simpa using htext) (hdiff _ _)

/-! ## The content -/

section Content

variable {S S' : Sorter Partition} {partitions partitions' : List Partition} {crypttabOpts : Str}

/-- **Equal contents have equal lines for each device.** -/
theorem crypttabLine_eq_of_content_eq (hluks : ConsistentLuks partitions)
    (h : generateCrypttabContent S partitions crypttabOpts =
      generateCrypttabContent S' partitions crypttabOpts) {p q : Partition}
    (hp : p ∈ partitionsFiltered S partitions) (hq : q ∈ partitionsFiltered S' partitions)
    (hdevice : p.device = q.device) :
    crypttabLine partitions crypttabOpts p = crypttabLine partitions crypttabOpts q := by
  have hkeys := @map_device_partitionsFiltered S' S _ _ (List.Perm.refl partitions)
  set line := crypttabLine partitions crypttabOpts with hline
  have hlines : (partitionsFiltered S partitions).map line =
      (partitionsFiltered S' partitions).map line := by
    refine lines_eq_of_text_eq ?_ ?_
    · rw [List.forall₂_map_left_iff, List.forall₂_map_right_iff]
      refine forall₂_of_map_eq hkeys fun a ha b hb hab => ?_
      obtain ⟨hname, huuid⟩ := hluks a (mem_partitionsFiltered ha) b (mem_partitionsFiltered hb) hab
      exact crypttabLine_eq_or_diverge hname huuid
    · simpa [generateCrypttabContent_eq, List.filterMap_map, ← hline] using h
  have hboth := congrArg₂ List.zip hkeys hlines
  rw [List.zip_map', List.zip_map'] at hboth
  have hmem : (p.device, line p) ∈ (partitionsFiltered S' partitions).map
      fun a => (a.device, line a) := by
    rw [← hboth]
    exact List.mem_map_of_mem hp
  obtain ⟨r, hr, hpair⟩ := List.mem_map.mp hmem
  obtain ⟨hrdevice, hrline⟩ := Prod.mk.injEq .. ▸ hpair
  rw [← hrline, eq_of_mem_partitionsFiltered hr hq (hrdevice.trans hdevice)]

/-- Where the root is alone on its device, the lines of a device are all the same. -/
theorem RootAlone.crypttabLine_eq (hluks : ConsistentLuks partitions) (h : RootAlone partitions)
    {p q : Partition} (hp : p ∈ partitions) (hq : q ∈ partitions) (hdevice : p.device = q.device) :
    crypttabLine partitions crypttabOpts p = crypttabLine partitions crypttabOpts q := by
  obtain ⟨hname, huuid⟩ := hluks p hp q hq hdevice
  refine crypttabLine_congr hname huuid fun henc _ hboot => ?_
  have halone := h.resolve_left hboot
  have hencq : q.Encrypted := by rwa [Partition.Encrypted, ← hname, ← huuid]
  exact ⟨fun hm => halone p hp hm henc q hq hdevice.symm,
    fun hm => halone q hq hm hencq p hp hdevice⟩

/-- Equal lines for each device make equal contents. -/
theorem content_eq_of_crypttabLine_eq (hperm : partitions'.Perm partitions)
    (hlines : ∀ p ∈ partitions, ∀ q ∈ partitions, p.device = q.device →
      crypttabLine partitions crypttabOpts p = crypttabLine partitions crypttabOpts q) :
    generateCrypttabContent S' partitions' crypttabOpts =
      generateCrypttabContent S partitions crypttabOpts := by
  have hkeys := @map_device_partitionsFiltered S S' _ _ hperm
  set line := crypttabLine partitions crypttabOpts with hline
  have hmap : (partitionsFiltered S' partitions').map line =
      (partitionsFiltered S partitions).map line := by
    rw [← List.forall₂_eq_eq_eq, List.forall₂_map_left_iff, List.forall₂_map_right_iff]
    exact forall₂_of_map_eq hkeys fun a ha b hb =>
      hlines a (hperm.mem_iff.mp (mem_partitionsFiltered ha)) b (mem_partitionsFiltered hb)
  have hfilter : (partitionsFiltered S' partitions').filterMap line =
      (partitionsFiltered S partitions).filterMap line := by
    simpa [List.filterMap_map] using congrArg (List.filterMap id) hmap
  rw [generateCrypttabContent_eq, generateCrypttabContent_eq, crypttabLine_perm hperm, ← hline,
    hfilter]

/-- The sorts may keep any partition of a device, so a root with the content determined is alone. -/
theorem CrypttabDetermined.rootAlone (hluks : ConsistentLuks partitions)
    (h : CrypttabDetermined partitions crypttabOpts) : RootAlone partitions := by
  obtain ⟨representatives, -, -, -, hcontent⟩ := h
  by_contra halone
  rw [RootAlone, not_or] at halone
  obtain ⟨hboot, hshared⟩ := halone
  push Not at hshared
  obtain ⟨p, hp, hm, henc, q, hq, hdevice, hqm⟩ := hshared
  -- One result of the sorts keeps the root, another the other partition of its device.
  obtain ⟨S, hS⟩ := exists_sorter_keeping hp
  obtain ⟨S', hS'⟩ := exists_sorter_keeping hq
  have hline := crypttabLine_eq_of_content_eq hluks
    ((hcontent S _ (List.Perm.refl _)).trans (hcontent S' _ (List.Perm.refl _)).symm)
    hS hS' hdevice.symm
  obtain ⟨hname, huuid⟩ := hluks p hp q hq hdevice.symm
  have hroot : isRootEncrypted partitions = true :=
    anyMapperAt_iff.mpr (EncryptedAt.mapperAt ⟨p, hp, hm, henc⟩)
  have hbool : isBootEncrypted partitions = false := by
    rw [isBootEncrypted, ← Bool.not_eq_true, anyMapperAt_iff]
    exact hboot
  obtain ⟨⟨name, hn, hn'⟩, uuid, hu, hu'⟩ := henc
  rw [crypttabLine, crypttabLine, crypttabEntry_of_encrypted _ _ hn hn' hu hu',
    crypttabEntry_of_encrypted _ _ (hname ▸ hn) hn' (huuid ▸ hu) hu', hroot, hbool] at hline
  simp [hm, hqm, password_ne.symm] at hline

theorem RootAlone.crypttabDetermined (hluks : ConsistentLuks partitions)
    (hplaces : PlacesDistinct partitions) (h : RootAlone partitions) :
    CrypttabDetermined partitions crypttabOpts := by
  refine ⟨partitionsFiltered .stable partitions, partitionsFiltered_ordered,
    fun p => mem_partitionsFiltered_stable hplaces, fun p _ => crypttabLine_isSome_iff, ?_⟩
  intro S partitions' hperm
  rw [← generateCrypttabContent_eq]
  exact content_eq_of_crypttabLine_eq hperm
    fun p hp q hq hdevice => h.crypttabLine_eq hluks hp hq hdevice

/-- **When the content is determined**: the sorts may keep any partition of a device, and only a
root has a line of its own. -/
theorem crypttabDetermined_iff (hluks : ConsistentLuks partitions)
    (hplaces : PlacesDistinct partitions) :
    CrypttabDetermined partitions crypttabOpts ↔ RootAlone partitions :=
  ⟨CrypttabDetermined.rootAlone hluks, RootAlone.crypttabDetermined hluks hplaces⟩

end Content

/-- An encrypted root partition and an EFI partition. -/
theorem crypttabDetermined_iff_usual :
    let root := Partition.encrypted ['/'] (lit "/dev/sda2") (lit "cryptroot") (lit "5c4e")
    let boot := { Partition.empty with mountpoint := lit "/boot", device := lit "/dev/sda1" }
    ConsistentLuks [root, boot] ∧ PlacesDistinct [root, boot] ∧
      (CrypttabDetermined [root, boot] (lit "luks") ↔ RootAlone [root, boot]) := by
  intro root boot
  have hdevice : root.device ≠ boot.device := by simp [root, boot, Partition.encrypted, lit_eq]
  have hluks : ConsistentLuks [root, boot] := by
    intro p hp q hq h
    rw [List.mem_pair] at hp hq
    rcases hp with rfl | rfl <;> rcases hq with rfl | rfl
    · exact ⟨rfl, rfl⟩
    · exact absurd h hdevice
    · exact absurd h.symm hdevice
    · exact ⟨rfl, rfl⟩
  have hplaces : PlacesDistinct [root, boot] :=
    List.pairwise_pair.mpr fun h => absurd h hdevice
  exact ⟨hluks, hplaces, crypttabDetermined_iff hluks hplaces⟩

/-- An encrypted root with two subvolumes: either may be kept for the device, and only the root's
line has no key file. -/
theorem crypttabDetermined_subvolumes :
    let root := Partition.encrypted ['/'] (lit "/dev/sda2") (lit "cryptroot") (lit "5c4e")
    let home := { root with mountpoint := lit "/home" }
    ConsistentLuks [root, home] ∧ PlacesDistinct [root, home] ∧
      ¬ CrypttabDetermined [root, home] (lit "luks") := by
  intro root home
  have hhome : home.mountpoint ≠ ['/'] := by simp [home, lit_eq]
  have hluks : ConsistentLuks [root, home] := by
    intro p hp q hq _
    rw [List.mem_pair] at hp hq
    rcases hp with rfl | rfl <;> rcases hq with rfl | rfl <;> exact ⟨rfl, rfl⟩
  refine ⟨hluks, List.pairwise_pair.mpr fun _ h => hhome h.symm, fun h => ?_⟩
  rcases h.rootAlone hluks with ⟨part, hpart, hm, -⟩ | halone
  · rw [List.mem_pair] at hpart
    rcases hpart with rfl | rfl <;> simp [root, home, Partition.encrypted, lit_eq] at hm
  · have henc : root.Encrypted := by
      refine ⟨⟨_, rfl, ?_⟩, _, rfl, ?_⟩ <;> simp [lit_eq]
    exact hhome (halone root (by simp) rfl henc home (by simp) rfl)

end CliInstaller
