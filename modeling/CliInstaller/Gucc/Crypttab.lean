import CliInstaller.General.Sorting
import CliInstaller.Gucc.Partition

/-!
# `gucc::fs`: generating crypttab

The partitions are sorted by mountpoint, then by device, and the first of each device is kept; the
kept partitions that are encrypted have an entry. Whether an entry uses the key file depends on
two scans over all partitions, for a root and for a boot partition.

Source: `gucc/src/crypttab.cpp`.

## Main definitions

* `CrypttabEntry`, `crypttabEntry`: the fields of an entry, and how they are chosen
* `genCrypttabEntry`, `partitionsFiltered`, `generateCrypttabContent`: the generators
* `KeyFilePolicy`: which entries are to use the key file

## Main results

* `generateCrypttabContent_eq`: the content is the header and the entries
* `exists_sorter_keeping`: any partition may be the one that is kept for its device
* `keyFilePolicy_iff`: when the entries follow the policy
-/

namespace CliInstaller

open Sorting

def crypttabHeader : Str :=
  lit "# Configuration for encrypted block devices\n# See crypttab(5) for details.\n\n# NOTE: Do not list your root (/) partition here, it must be set up\n#       beforehand by the initramfs (/etc/mkinitcpio.conf).\n\n# <name>       <device>                                     <password>              <options>\n"

/-- The fields of an entry. -/
structure CrypttabEntry where
  name : Str
  device : Str
  password : Str
  options : Str
  deriving DecidableEq, Repr

/-- The text of an entry: `"{:21} {:<45} {}{}\n"`. -/
def CrypttabEntry.text (entry : CrypttabEntry) : Str :=
  padRight 21 entry.name ++ [' '] ++ padRight 45 entry.device ++ [' '] ++ entry.password ++
    entry.options ++ ['\n']

/-- The fields `gen_crypttab_entry` chooses; `none` when a LUKS field is unset or empty. -/
def crypttabEntry (partition : Partition) (crypttabOpts : Str)
    (isRootEncrypted isBootEncrypted : Bool) : Option CrypttabEntry :=
  match partition.luksMapperName, partition.luksUuid with
  | some luksMapperName, some luksUuid =>
    if luksMapperName.isEmpty || luksUuid.isEmpty then none
    else if !isRootEncrypted || (partition.mountpoint = ['/'] && !isBootEncrypted) then
      some ⟨luksMapperName, lit "UUID=" ++ luksUuid, lit "none", []⟩
    else
      some ⟨luksMapperName, lit "UUID=" ++ luksUuid, lit "/crypto_keyfile.bin",
        [' '] ++ crypttabOpts⟩
  | _, _ => none

def genCrypttabEntry (partition : Partition) (crypttabOpts : Str)
    (isRootEncrypted isBootEncrypted : Bool) : Option Str :=
  (crypttabEntry partition crypttabOpts isRootEncrypted isBootEncrypted).map CrypttabEntry.text

/-- Some partition at the mountpoint has a mapper name. -/
def anyMapperAt (partitions : List Partition) (mountpoint : Str) : Bool :=
  partitions.any fun part => part.mountpoint = mountpoint && part.luksMapperName.isSome

def isRootEncrypted (partitions : List Partition) : Bool := anyMapperAt partitions ['/']

/-- `is_boot_encrypted`, which looks for the mountpoint "/bool". -/
def isBootEncrypted (partitions : List Partition) : Bool := anyMapperAt partitions (lit "/bool")

/-- Sort by mountpoint and by device, and keep the first of each device. -/
def partitionsFiltered (S : Sorter Partition) (partitions : List Partition) : List Partition :=
  let partitionsSorted := S.byKey Partition.mountpoint partitions
  let partitionsSorted := S.byKey Partition.device partitionsSorted
  uniqueBy Partition.device partitionsSorted

def generateCrypttabContent (S : Sorter Partition) (partitions : List Partition)
    (crypttabOpts : Str) : Str :=
  (partitionsFiltered S partitions).foldl
    (fun crypttabContent partition =>
      match genCrypttabEntry partition crypttabOpts (isRootEncrypted partitions)
          (isBootEncrypted partitions) with
      | none => crypttabContent
      | some entry => crypttabContent ++ entry) crypttabHeader

/-! ## The entries -/

/-- The entry of a partition, if it is kept. -/
def crypttabLine (partitions : List Partition) (crypttabOpts : Str) (partition : Partition) :
    Option CrypttabEntry :=
  crypttabEntry partition crypttabOpts (isRootEncrypted partitions) (isBootEncrypted partitions)

section Entries

variable {S : Sorter Partition} {partitions : List Partition} {crypttabOpts : Str}

/-- **The content is the header followed by the entries** of the kept partitions. -/
theorem generateCrypttabContent_eq :
    generateCrypttabContent S partitions crypttabOpts =
      crypttabHeader ++ ((partitionsFiltered S partitions).filterMap
        (crypttabLine partitions crypttabOpts)).flatMap CrypttabEntry.text := by
  rw [generateCrypttabContent]
  apply foldl_append_entries
  intro content partition
  rcases hentry : crypttabEntry partition crypttabOpts (isRootEncrypted partitions)
      (isBootEncrypted partitions) with _ | entry <;>
    simp [crypttabLine, genCrypttabEntry, hentry]

/-- The entry of an encrypted partition: with the key file when the root scan succeeds, and the
partition is not the root or the boot scan succeeds. -/
theorem crypttabEntry_of_encrypted {partition : Partition} {name uuid : Str} (root boot : Bool)
    (hname : partition.luksMapperName = some name) (hname' : name ≠ [])
    (huuid : partition.luksUuid = some uuid) (huuid' : uuid ≠ []) :
    crypttabEntry partition crypttabOpts root boot =
      some (if root = true ∧ (partition.mountpoint ≠ ['/'] ∨ boot = true) then
        ⟨name, lit "UUID=" ++ uuid, lit "/crypto_keyfile.bin", [' '] ++ crypttabOpts⟩
      else ⟨name, lit "UUID=" ++ uuid, lit "none", []⟩) := by
  have hset : (name.isEmpty || uuid.isEmpty) = false := by simp [hname', huuid']
  simp only [crypttabEntry, hname, huuid, hset, Bool.false_eq_true, if_false]
  by_cases hroot : partition.mountpoint = ['/'] <;> cases root <;> cases boot <;> simp [hroot]

/-- Only encrypted partitions have an entry. -/
theorem encrypted_of_crypttabEntry {partition : Partition} {root boot : Bool}
    {entry : CrypttabEntry} (h : crypttabEntry partition crypttabOpts root boot = some entry) :
    partition.Encrypted := by
  rw [crypttabEntry] at h
  split at h
  next name uuid hname huuid =>
    have hset : ¬ (name.isEmpty || uuid.isEmpty) = true := by
      intro hempty
      rw [if_pos hempty] at h
      simp at h
    simp only [Bool.or_eq_true, List.isEmpty_iff, not_or] at hset
    exact ⟨⟨name, hname, hset.1⟩, uuid, huuid, hset.2⟩
  next => simp at h

theorem mem_partitionsFiltered {partition : Partition}
    (h : partition ∈ partitionsFiltered S partitions) : partition ∈ partitions := by
  simpa using mem_of_mem_uniqueBy h

theorem exists_mem_partitionsFiltered {partition : Partition} (h : partition ∈ partitions) :
    ∃ kept ∈ partitionsFiltered S partitions, kept.device = partition.device :=
  exists_mem_uniqueBy (by simpa using h)

/-- **Any partition may be the one that is kept** for its device. -/
theorem exists_sorter_keeping {partition : Partition} (h : partition ∈ partitions) :
    ∃ S : Sorter Partition, partition ∈ partitionsFiltered S partitions := by
  -- Sort with the partition in front: it stays the first of its device.
  set first := Sorter.stable.byKey Partition.device (partition :: partitions.erase partition)
    with hfirst
  refine ⟨Sorter.returning first, ?_⟩
  set S := Sorter.returning first
  have hperm : first.Perm (S.byKey Partition.mountpoint partitions) :=
    ((Sorter.stable.byKey_perm _ _).trans (List.perm_cons_erase h).symm).trans
      (S.byKey_perm _ _).symm
  have hsorted : S.byKey Partition.device (S.byKey Partition.mountpoint partitions) = first :=
    Sorter.returning_byKey hperm (Sorter.stable.byKey_ordered _ _)
  have hfind : (first.find? fun p => p.device = partition.device) = some partition := by
    have hkept := @Sorter.find?_stable_byKey _ _ _ Partition.device
      (partition :: partitions.erase partition) partition.device
    rw [List.find?_cons_of_pos (by simp)] at hkept
    convert hkept
  simp only [partitionsFiltered, hsorted]
  exact mem_uniqueBy_of_find? hfind

end Entries

/-! ## The key file -/

/-- Some partition at the mountpoint is encrypted. -/
def EncryptedAt (partitions : List Partition) (mountpoint : Str) : Prop :=
  ∃ part ∈ partitions, part.mountpoint = mountpoint ∧ part.Encrypted

/-- Some partition at the mountpoint has a mapper name. -/
def MapperAt (partitions : List Partition) (mountpoint : Str) : Prop :=
  ∃ part ∈ partitions, part.mountpoint = mountpoint ∧ part.luksMapperName ≠ none

instance (partitions : List Partition) (mountpoint : Str) :
    Decidable (EncryptedAt partitions mountpoint) := by
  unfold EncryptedAt; infer_instance

theorem anyMapperAt_iff {partitions : List Partition} {mountpoint : Str} :
    anyMapperAt partitions mountpoint = true ↔ MapperAt partitions mountpoint := by
  simp [anyMapperAt, MapperAt, Option.isSome_iff_ne_none]

theorem EncryptedAt.mapperAt {partitions : List Partition} {mountpoint : Str}
    (h : EncryptedAt partitions mountpoint) : MapperAt partitions mountpoint := by
  obtain ⟨part, hpart, hm, ⟨name, hname, -⟩, -⟩ := h
  exact ⟨part, hpart, hm, by simp [hname]⟩

/-- Every emitted entry uses the key file and the options if and only if the root is encrypted, and
the partition is not the root or the boot partition is encrypted; every other entry uses the
password "none" and no options. -/
def KeyFilePolicy (S : Sorter Partition) (partitions : List Partition) (crypttabOpts : Str) :
    Prop :=
  ∀ partition ∈ partitionsFiltered S partitions, ∀ entry,
    crypttabLine partitions crypttabOpts partition = some entry →
    (entry.password, entry.options) =
      if EncryptedAt partitions ['/'] ∧
          (partition.mountpoint ≠ ['/'] ∨ EncryptedAt partitions (lit "/boot")) then
        (lit "/crypto_keyfile.bin", [' '] ++ crypttabOpts)
      else (lit "none", [])

/-- The condition: for a root the scan for "/bool" tells what a scan for encrypted "/boot"
partitions would, and for other partitions a root with a mapper name is an encrypted one. -/
def ScansAgree (partitions : List Partition) : Prop :=
  ((∃ part ∈ partitions, part.mountpoint ≠ ['/'] ∧ part.Encrypted) →
    MapperAt partitions ['/'] → EncryptedAt partitions ['/']) ∧
  (EncryptedAt partitions ['/'] →
    (MapperAt partitions (lit "/bool") ↔ EncryptedAt partitions (lit "/boot")))

theorem password_ne : lit "/crypto_keyfile.bin" ≠ lit "none" := by decide +kernel

section Policy

variable {partitions : List Partition} {crypttabOpts : Str}

/-- The policy for one encrypted partition. -/
theorem policy_iff_of_encrypted {partition : Partition} (henc : partition.Encrypted) :
    (∀ entry, crypttabLine partitions crypttabOpts partition = some entry →
      (entry.password, entry.options) =
        if EncryptedAt partitions ['/'] ∧
            (partition.mountpoint ≠ ['/'] ∨ EncryptedAt partitions (lit "/boot")) then
          (lit "/crypto_keyfile.bin", [' '] ++ crypttabOpts)
        else (lit "none", [])) ↔
      ((MapperAt partitions ['/'] ∧
          (partition.mountpoint ≠ ['/'] ∨ MapperAt partitions (lit "/bool"))) ↔
        EncryptedAt partitions ['/'] ∧
          (partition.mountpoint ≠ ['/'] ∨ EncryptedAt partitions (lit "/boot"))) := by
  obtain ⟨⟨name, hname, hname'⟩, uuid, huuid, huuid'⟩ := henc
  rw [crypttabLine, crypttabEntry_of_encrypted _ _ hname hname' huuid huuid', isRootEncrypted,
    isBootEncrypted]
  simp only [← anyMapperAt_iff, Option.some.injEq, forall_eq']
  split_ifs with hscan hpolicy hpolicy
  · exact iff_of_true rfl (iff_of_true hscan hpolicy)
  · exact iff_of_false (by simp [password_ne]) fun h => hpolicy (h.mp hscan)
  · exact iff_of_false (by simp [password_ne.symm]) fun h => hscan (h.mpr hpolicy)
  · exact iff_of_true rfl (iff_of_false hscan hpolicy)

/-- **When the entries follow the policy**, whatever the sort does with equal keys: the text is the
header and these entries. -/
theorem keyFilePolicy_iff :
    (∀ S, generateCrypttabContent S partitions crypttabOpts =
      crypttabHeader ++ ((partitionsFiltered S partitions).filterMap
        (crypttabLine partitions crypttabOpts)).flatMap CrypttabEntry.text) ∧
    ((∀ S, KeyFilePolicy S partitions crypttabOpts) ↔ ScansAgree partitions) := by
  refine ⟨fun _ => generateCrypttabContent_eq, ?_⟩
  have hroots : ∀ part ∈ partitions, part.mountpoint = ['/'] → part.Encrypted →
      EncryptedAt partitions ['/'] := fun part hpart hm henc => ⟨part, hpart, hm, henc⟩
  constructor
  -- Any encrypted partition may be kept for its device, so the policy holds for each of them.
  · intro hpolicy
    have hkept : ∀ part ∈ partitions, part.Encrypted → _ := fun part hpart henc =>
      (exists_sorter_keeping hpart).elim fun S hS =>
        (policy_iff_of_encrypted henc).mp (hpolicy S part hS)
    refine ⟨?_, ?_⟩
    · rintro ⟨part, hpart, hm, henc⟩ hmapper
      exact ((hkept part hpart henc).mp ⟨hmapper, .inl hm⟩).1
    · rintro ⟨root, hroot, hm, henc⟩
      have hrootEnc := hroots root hroot hm henc
      simpa [hm, hrootEnc, hrootEnc.mapperAt] using hkept root hroot henc
  · rintro ⟨hother, hroot⟩ S part hpart entry hentry
    have henc := encrypted_of_crypttabEntry hentry
    refine (policy_iff_of_encrypted henc).mpr ?_ entry hentry
    have hpart := mem_partitionsFiltered hpart
    by_cases hm : part.mountpoint = ['/']
    · have hrootEnc := hroots part hpart hm henc
      simp [hm, hrootEnc, hrootEnc.mapperAt, hroot hrootEnc]
    · have hiff : MapperAt partitions ['/'] ↔ EncryptedAt partitions ['/'] :=
        ⟨hother ⟨part, hpart, hm, henc⟩, EncryptedAt.mapperAt⟩
      simp [hm, hiff]

end Policy

/-- An encrypted root and an encrypted boot partition: the root has no key file. -/
theorem keyFilePolicy_encrypted_boot :
    let root := Partition.encrypted ['/'] (lit "/dev/sda2") (lit "cryptroot") (lit "5c4e")
    let boot := Partition.encrypted (lit "/boot") (lit "/dev/sda1") (lit "cryptboot") (lit "1f2a")
    crypttabLine [boot, root] (lit "luks") root =
        some ⟨lit "cryptroot", lit "UUID=5c4e", lit "none", []⟩ ∧
      ¬ KeyFilePolicy .stable [boot, root] (lit "luks") := by
  intro root boot
  have hline : crypttabLine [boot, root] (lit "luks") root =
      some ⟨lit "cryptroot", lit "UUID=5c4e", lit "none", []⟩ := by decide +kernel
  refine ⟨hline, fun h => ?_⟩
  have hroot := h root (by decide +kernel) _ hline
  exact absurd hroot (by decide +kernel)

end CliInstaller
