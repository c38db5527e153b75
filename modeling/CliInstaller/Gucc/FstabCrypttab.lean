import CliInstaller.Gucc.Fstab
import CliInstaller.Gucc.Crypttab

/-!
# fstab and crypttab

An fstab entry names the mapper's device as soon as the mapper name is set; a crypttab entry sets
it up only when the mapper name and the LUKS UUID are both set and not empty.

## Main definitions

* `ConsistentLuks`: partitions of one device carry the same LUKS fields
* `MappersAgree`: every mapper device of fstab has its entry in crypttab
* `MappersSetUp`: the condition on the partitions

## Main results

* `exists_crypttabLine_iff`: which entries crypttab has
* `mappersAgree_iff`: when fstab and crypttab agree
-/

namespace CliInstaller

open Sorting

/-- Partitions with the same device carry the same LUKS fields. -/
def ConsistentLuks (partitions : List Partition) : Prop :=
  ∀ p ∈ partitions, ∀ q ∈ partitions, p.device = q.device →
    p.luksMapperName = q.luksMapperName ∧ p.luksUuid = q.luksUuid

/-- The entries of crypttab. -/
def crypttabLines (S : Sorter Partition) (partitions : List Partition) (crypttabOpts : Str) :
    List CrypttabEntry :=
  (partitionsFiltered S partitions).filterMap (crypttabLine partitions crypttabOpts)

/-- Every fstab entry whose device field is `/dev/mapper/N` has a matching crypttab entry: `N` is
not empty, and the entry is named `N` and has the partition's LUKS UUID. -/
def MappersAgree (S : Sorter Partition) (partitions : List Partition) (crypttabOpts : Str) : Prop :=
  ∀ partition ∈ partitions, ∀ entry, fstabLine partition = some entry →
    ∀ N, entry.device = lit "/dev/mapper/" ++ N →
      N ≠ [] ∧ ∃ uuid, partition.luksUuid = some uuid ∧
        ∃ line ∈ crypttabLines S partitions crypttabOpts,
          line.name = N ∧ line.device = lit "UUID=" ++ uuid

/-- Among the partitions with an fstab entry, those with a mapper name are encrypted; and where
neither a mapper name nor a UUID is set, and the device is itself `/dev/mapper/N`, some encrypted
partition has the mapper name `N` and the same LUKS UUID. -/
def MappersSetUp (partitions : List Partition) : Prop :=
  ∀ partition ∈ partitions, HasFstabLine partition →
    (partition.luksMapperName ≠ none → partition.Encrypted) ∧
      (partition.luksMapperName = none → partition.uuidStr = [] →
        ∀ N, partition.device = lit "/dev/mapper/" ++ N →
          ∃ q ∈ partitions, q.Encrypted ∧ q.luksMapperName = some N ∧
            q.luksUuid = partition.luksUuid)

section Agree

variable {S : Sorter Partition} {partitions : List Partition} {crypttabOpts : Str}

/-- **Crypttab has an entry for each mapper name and UUID of an encrypted partition**, and no
other. -/
theorem exists_crypttabLine_iff (hluks : ConsistentLuks partitions) {N uuid : Str} :
    (∃ line ∈ crypttabLines S partitions crypttabOpts,
        line.name = N ∧ line.device = lit "UUID=" ++ uuid) ↔
      ∃ q ∈ partitions, q.Encrypted ∧ q.luksMapperName = some N ∧ q.luksUuid = some uuid := by
  constructor
  · rintro ⟨line, hline, hN, hdevice⟩
    obtain ⟨q, hq, hentry⟩ := List.mem_filterMap.mp hline
    have henc := encrypted_of_crypttabEntry hentry
    obtain ⟨⟨name, hname, hname'⟩, u, hu, hu'⟩ := henc
    rw [crypttabLine, crypttabEntry_of_encrypted _ _ hname hname' hu hu'] at hentry
    obtain ⟨rfl, rfl⟩ : name = N ∧ u = uuid := by
      rw [← hN]
      split_ifs at hentry <;> obtain rfl := Option.some.inj hentry <;> simpa using hdevice
    exact ⟨q, mem_partitionsFiltered hq, ⟨⟨name, hname, hname'⟩, u, hu, hu'⟩, hname, hu⟩
  · rintro ⟨q, hq, ⟨⟨name, hname, hname'⟩, u, hu, hu'⟩, hN, huuid⟩
    obtain rfl : name = N := Option.some.inj (hname.symm.trans hN)
    obtain rfl : u = uuid := Option.some.inj (hu.symm.trans huuid)
    obtain ⟨kept, hkept, hdevice⟩ := exists_mem_partitionsFiltered (S := S) hq
    obtain ⟨hkname, hkuuid⟩ := hluks kept (mem_partitionsFiltered hkept) q hq hdevice
    have hentry : crypttabLine partitions crypttabOpts kept = some _ :=
      crypttabEntry_of_encrypted _ _ (hkname.trans hname) hname' (hkuuid.trans hu) hu'
    refine ⟨_, List.mem_filterMap.mpr ⟨kept, hkept, hentry⟩, ?_⟩
    split_ifs <;> exact ⟨rfl, rfl⟩

/-- **When fstab and crypttab agree on the mapper's devices**: the texts are a header and these
entries. -/
theorem mappersAgree_iff (hluks : ConsistentLuks partitions) :
    (generateFstabContent partitions =
        fstabHeader ++ (partitions.filterMap fstabLine).flatMap FstabEntry.text ∧
      generateCrypttabContent S partitions crypttabOpts =
        crypttabHeader ++ (crypttabLines S partitions crypttabOpts).flatMap CrypttabEntry.text) ∧
    (MappersAgree S partitions crypttabOpts ↔ MappersSetUp partitions) := by
  refine ⟨⟨generateFstabContent_eq partitions, generateCrypttabContent_eq⟩, ?_⟩
  constructor
  · intro hagree partition hpartition hhas
    have hentry := fstabLine_eq_some_iff.mpr ⟨hhas, rfl⟩
    constructor
    · intro hname
      obtain ⟨N, hN⟩ := Option.ne_none_iff_exists'.mp hname
      obtain ⟨-, u, hu, hline⟩ := hagree partition hpartition _ hentry N
        (fstabDevice_eq_mapper_iff.mpr (.inl hN))
      obtain ⟨q, -, ⟨⟨n, hn, hn'⟩, u', hu', hu''⟩, hqN, hqu⟩ :=
        (exists_crypttabLine_iff hluks).mp hline
      obtain rfl : n = N := Option.some.inj (hn.symm.trans hqN)
      obtain rfl : u' = u := Option.some.inj (hu'.symm.trans hqu)
      exact ⟨⟨n, hN, hn'⟩, u', hu, hu''⟩
    · intro hname huuid N hdevice
      obtain ⟨-, u, hu, hline⟩ := hagree partition hpartition _ hentry N
        (fstabDevice_eq_mapper_iff.mpr (.inr ⟨hname, huuid, hdevice⟩))
      obtain ⟨q, hq, henc, hqN, hqu⟩ := (exists_crypttabLine_iff hluks).mp hline
      exact ⟨q, hq, henc, hqN, hqu.trans hu.symm⟩
  · intro hset partition hpartition entry hentry N hN
    obtain ⟨hhas, rfl⟩ := fstabLine_eq_some_iff.mp hentry
    obtain ⟨q, hq, henc, hqN, hqu⟩ : ∃ q ∈ partitions, q.Encrypted ∧
        q.luksMapperName = some N ∧ q.luksUuid = partition.luksUuid := by
      rcases fstabDevice_eq_mapper_iff.mp hN with hname | ⟨hname, huuid, hdevice⟩
      · exact ⟨partition, hpartition, (hset partition hpartition hhas).1 (by simp [hname]), hname,
          rfl⟩
      · exact (hset partition hpartition hhas).2 hname huuid N hdevice
    obtain ⟨⟨n, hn, hn'⟩, u, hu, hu'⟩ := id henc
    obtain rfl : n = N := Option.some.inj (hn.symm.trans hqN)
    exact ⟨hn', u, hqu ▸ hu, (exists_crypttabLine_iff hluks).mpr ⟨q, hq, henc, hn, hu⟩⟩

end Agree

/-- The root on LUKS on LVM: the mapper name is set, and the LUKS UUID is not. -/
def rootOnLvm : Partition :=
  { Partition.empty with
    fstype := lit "ext4", mountpoint := ['/'], device := lit "/dev/mapper/cryptroot",
    luksMapperName := some (lit "cryptroot") }

theorem mappersAgree_rootOnLvm :
    ConsistentLuks [rootOnLvm] ∧
      (fstabLine rootOnLvm).map FstabEntry.device = some (lit "/dev/mapper/cryptroot") ∧
      crypttabLines .stable [rootOnLvm] [] = [] ∧ ¬ MappersAgree .stable [rootOnLvm] [] := by
  refine ⟨by simp [ConsistentLuks], by decide +kernel, by decide +kernel, fun h => ?_⟩
  have hentry := fstabLine_eq_some_iff.mpr ⟨(by decide +kernel : HasFstabLine rootOnLvm), rfl⟩
  obtain ⟨-, uuid, huuid, -⟩ := h rootOnLvm List.mem_cons_self _ hentry (lit "cryptroot")
    (by decide +kernel)
  exact absurd huuid (by simp [rootOnLvm, Partition.empty])

/-- An encrypted root with both fields set. -/
theorem mappersAgree_encryptedRoot :
    MappersAgree .stable
      [Partition.encrypted ['/'] (lit "/dev/sda2") (lit "cryptroot") (lit "5c4e")] (lit "luks") := by
  refine (mappersAgree_iff (by simp [ConsistentLuks])).2.mpr ?_
  rintro partition hpartition -
  obtain rfl := List.mem_singleton.mp hpartition
  exact ⟨fun _ => by decide +kernel, fun h => by simp [Partition.encrypted] at h⟩

end CliInstaller
