import CliInstaller.Installer.CryptDevices
import CliInstaller.Installer.PartitionList

/-!
# The kernel command line of rEFInd and Limine

`utils::get_kernel_params` looks for the root in the lines of `PARTITIONS`, which have a device and
a size, and for LUKS formats `LUKS_DEV`, which has the prefix and the name already. So no line is
found and there is no `root=`; and the prefix stands twice.

Source: `src/kernel_params.cpp`.

## Main definitions

* `BootSettings`, `utilsGetKernelParams`: the settings, and the function
* `DeviceLine`: a line of `find_partitions`
* `LuksDevWritten`: the values of `LUKS_DEV`
* `RootOnce`, `CryptdeviceOnce`, `Boots`: what a bootable command line has

## Main results

* `findPartitions_deviceLine`: what `find_partitions` lists has that form
* `not_rootOnce`, `not_cryptdeviceOnce`, `not_boots`: the command line never has it
-/

namespace CliInstaller

open Splitting

/-- The settings that are read for the command line. -/
structure BootSettings where
  luks : Int
  lvm : Int
  raid : Int
  partitions : List Str
  luksDev : Str
  luksRootName : Str
  lvmGroup : Str
  /-- `ROOT_PART`, the partition that was mounted as root -/
  rootPart : Str
  deriving DecidableEq, Repr

/-- The line is taken for that of the root. -/
def isRootLine (line : Str) : Bool :=
  contains line (lit "/ ") || contains line (lit "/ ext") || contains line (lit "/ btrfs") ||
    contains line (lit "/ xfs")

/-- The device of the first line that is taken for that of the root, up to its first space. -/
def rootLineDevice (partitions : List Str) : Str :=
  match partitions.find? isRootLine with
  | some line => line.takeWhile fun c => c ≠ ' '
  | none => []

/-- `utils::get_kernel_params` -/
def utilsGetKernelParams (settings : BootSettings) : Option (List Str) :=
  let cryptdevice :=
    if settings.luks = 1 then
      [lit "cryptdevice=" ++ settings.luksDev ++ lit ":" ++ settings.luksRootName]
    else []
  let rootDevice := rootLineDevice settings.partitions
  let root :=
    if rootDevice.isEmpty then []
    else if settings.lvm = 1 then [lit "root=" ++ (lit "/dev/" ++ settings.lvmGroup ++ lit "/root")]
    else if settings.luks = 1 then [lit "root=" ++ (lit "/dev/mapper/" ++ settings.luksRootName)]
    else [lit "root=" ++ rootDevice]
  let raid := if settings.raid = 1 then [lit "rd.auto=1"] else []
  some (cryptdevice ++ root ++ [lit "rw", lit "quiet"] ++ raid)

/-! ## A bootable command line -/

/-- A line with a device path and a size. -/
def DeviceLine (line : Str) : Prop :=
  ∃ device size, line = device ++ ' ' :: size ∧ device ≠ [] ∧ ' ' ∉ device ∧
    device.getLast? ≠ some '/' ∧ '/' ∉ size

/-- What `LUKS_DEV` can be: it is empty at first, and three functions write to it. -/
inductive LuksDevWritten : Str → Prop
  /-- the initial value -/
  | empty : LuksDevWritten []
  /-- `query_partition` -/
  | query {devices : Devices} {partition : Str} {luks : LuksSettings} :
      LuksDevWritten luks.luksDev → LuksDevWritten (devices.queryPartition partition luks).luksDev
  /-- `get_cryptroot` -/
  | cryptroot {replies : CryptrootReplies} {crypt : CryptSettings} :
      LuksDevWritten crypt.luksDev → LuksDevWritten (getCryptroot replies crypt).luksDev
  /-- `get_cryptboot` -/
  | cryptboot {replies : CryptbootReplies} {crypt : CryptSettings} :
      LuksDevWritten crypt.luksDev → LuksDevWritten (getCryptboot replies crypt).luksDev

namespace BootSettings

/-- The root device, as the flags say. -/
def rootDevice (settings : BootSettings) : Str :=
  if settings.lvm = 1 then lit "/dev/" ++ settings.lvmGroup ++ lit "/root"
  else if settings.luks = 1 then lit "/dev/mapper/" ++ settings.luksRootName
  else settings.rootPart

/-- There is one `root=` parameter, and it names the root device. -/
def RootOnce (settings : BootSettings) : Prop :=
  ∃ params, utilsGetKernelParams settings = some params ∧
    (params.filter fun param => startsWith param (lit "root=")) =
      [lit "root=" ++ settings.rootDevice]

/-- There is one `cryptdevice=` parameter, with the prefix and the name once each. -/
def CryptdeviceOnce (settings : BootSettings) : Prop :=
  ∃ params device, utilsGetKernelParams settings = some params ∧
    (params.filter fun param => startsWith param (lit "cryptdevice=")) =
      [lit "cryptdevice=" ++ device ++ lit ":" ++ settings.luksRootName] ∧
    ¬ lit "cryptdevice=" <:+: device ∧ ¬ lit ":" ++ settings.luksRootName <:+ device

/-- **The command line can boot the system.** -/
def Boots (settings : BootSettings) : Prop :=
  settings.RootOnce ∧
    (settings.luks = 1 → LuksDevWritten settings.luksDev → settings.luksDev ≠ [] →
      settings.CryptdeviceOnce)

end BootSettings

/-! ## The root -/

/-- A slash and a space are in no line: the only space comes after the device. -/
theorem not_infix_of_deviceLine {line : Str} (h : DeviceLine line) : ¬ ['/', ' '] <:+: line := by
  rintro ⟨before, after, hline⟩
  obtain ⟨device, size, rfl, -, hspace, hlast, hslash⟩ := h
  rw [List.append_assoc, List.append_eq_append_iff] at hline
  rcases hline with ⟨rest, hdevice, hrest⟩ | ⟨rest, hbefore, hrest⟩
  · match rest, hrest with
    | [], hrest => simp at hrest
    | ['/'], hrest =>
      rw [hdevice] at hlast
      simp at hlast
    | c :: c' :: rest, hrest =>
      obtain ⟨-, hrest⟩ := List.cons.inj hrest
      obtain ⟨rfl, -⟩ := List.cons.inj hrest
      rw [hdevice] at hspace
      simp at hspace
    | [c], hrest =>
      obtain ⟨rfl, -⟩ := List.cons.inj hrest
      rw [hdevice] at hlast
      simp at hlast
  · match rest, hrest with
    | [], hrest => simp at hrest
    | c :: rest, hrest =>
      obtain ⟨-, hrest⟩ := List.cons.inj hrest
      rw [hrest] at hslash
      simp at hslash

theorem makeMultiline_append_line {tmp line : Str} (hne : line ≠ []) (hnewline : '\n' ∉ line) :
    makeMultiline (tmp ++ '\n' :: line) false '\n' = makeMultiline tmp false '\n' ++ [line] := by
  show makeSplitView _ _ = makeSplitView _ _ ++ _
  rw [makeSplitView_eq, makeSplitView_eq, pieces_append_cons, pieces_of_not_mem hne hnewline]

/-- A raid partition adds a line of that form. -/
theorem deviceLine_raidDevice {tmp raidPart : Str} (hnewline : '\n' ∉ raidPart)
    (hwords : ∀ word ∈ makeMultiline raidPart false ' ', '/' ∉ word)
    (h : ∀ line ∈ makeMultiline tmp false '\n', DeviceLine line) :
    ∀ line ∈ makeMultiline (tmp ++ raidDevice raidPart) false '\n', DeviceLine line := by
  have hpieces : makeMultiline raidPart false ' ' = pieces ' ' raidPart := makeSplitView_eq _ _
  unfold raidDevice
  rcases hparts : makeMultiline raidPart false ' ' with _ | ⟨name, rest⟩
  · rw [List.append_nil]
    exact h
  have hword (word : Str) (hmem : word ∈ name :: rest) :
      word ≠ [] ∧ ' ' ∉ word ∧ '/' ∉ word ∧ '\n' ∉ word := by
    rw [← hparts] at hmem
    have hslash := hwords word hmem
    rw [hpieces] at hmem
    refine ⟨(mem_pieces.mp hmem).2, not_mem_of_mem_splitOn (mem_pieces.mp hmem).1, hslash, ?_⟩
    exact fun hin => hnewline ((infix_of_mem_pieces hmem).subset hin)
  obtain ⟨hne, hspace, hslash, hnl⟩ := hword name List.mem_cons_self
  have hsize : '/' ∉ rest.headD [] ∧ '\n' ∉ rest.headD [] := by
    rcases rest with _ | ⟨size, rest⟩
    · simp
    · exact (hword size (by simp)).2.2
  have hline : DeviceLine (lit "/dev/" ++ name ++ lit " " ++ rest.headD []) := by
    refine ⟨lit "/dev/" ++ name, rest.headD [], by simp [lit_eq], by simp [lit_eq], ?_, ?_, hsize.1⟩
    · simp [lit_eq, hspace]
    · rw [List.getLast?_append_of_ne_nil _ hne]
      exact fun hlast => hslash (List.mem_of_getLast? hlast)
  have hcons : tmp ++ (lit "\n" ++ lit "/dev/" ++ name ++ lit " " ++ rest.headD []) =
      tmp ++ '\n' :: (lit "/dev/" ++ name ++ lit " " ++ rest.headD []) := by
    simp [lit_eq]
  have hfree : '\n' ∉ lit "/dev/" ++ name ++ lit " " ++ rest.headD [] := by
    rw [List.mem_append, not_or]
    exact ⟨by simp [lit_eq, hnl], hsize.2⟩
  intro line hmem
  rw [hcons, makeMultiline_append_line (by simp [lit_eq]) hfree, List.mem_append,
    List.mem_singleton] at hmem
  rcases hmem with hmem | rfl
  · exact h line hmem
  · exact hline

/-- **What `find_partitions` lists has that form**, if what `lsblk` prints does and no name or size
of a raid partition has a slash. -/
theorem findPartitions_deviceLine {includePart systemInfo lsblk raidPartitionsRaw : Str}
    {settings : PartitionSettings} (h : ∀ line ∈ makeMultiline lsblk false '\n', DeviceLine line)
    (hraid : ∀ raidPart ∈ makeMultiline raidPartitionsRaw true '\n',
      ∀ word ∈ makeMultiline raidPart false ' ', '/' ∉ word) :
    ∀ line ∈ (findPartitions includePart systemInfo lsblk raidPartitionsRaw
      settings).2.partitions, DeviceLine line := by
  have hloop (raidParts : List Str) (tmp : Str)
      (htmp : ∀ line ∈ makeMultiline tmp false '\n', DeviceLine line)
      (hparts : ∀ raidPart ∈ raidParts, '\n' ∉ raidPart ∧
        ∀ word ∈ makeMultiline raidPart false ' ', '/' ∉ word) :
      ∀ line ∈ makeMultiline (raidParts.foldl (fun tmp part => tmp ++ raidDevice part) tmp) false
        '\n', DeviceLine line := by
    induction raidParts generalizing tmp with
    | nil => exact htmp
    | cons raidPart raidParts ih =>
      obtain ⟨hnewline, hwords⟩ := hparts raidPart List.mem_cons_self
      exact ih _ (deviceLine_raidDevice hnewline hwords htmp)
        fun part hpart => hparts part (List.mem_cons_of_mem _ hpart)
  have htmp : ∀ line ∈ makeMultiline (partitionsTmp lsblk raidPartitionsRaw) false '\n',
      DeviceLine line := by
    unfold partitionsTmp
    split_ifs
    · exact h
    · refine hloop _ _ h fun raidPart hpart => ⟨?_, hraid raidPart hpart⟩
      have hmem : raidPart ∈ pieces '\n' raidPartitionsRaw := by
        rw [← makeSplitView_eq]
        exact List.mem_reverse.mp hpart
      exact not_mem_of_mem_splitOn (mem_pieces.mp hmem).1
  intro line hmem
  exact htmp line (List.mem_reverse.mp hmem)

theorem isRootLine_of_deviceLine {line : Str} (h : DeviceLine line) : isRootLine line = false := by
  have hno (needle : Str) (hneedle : ['/', ' '] <:+: needle) : contains line needle = false := by
    by_contra hcontains
    rw [Bool.not_eq_false] at hcontains
    exact not_infix_of_deviceLine h (hneedle.trans (infix_of_contains hcontains))
  rw [isRootLine, hno, hno, hno, hno]
  · rfl
  all_goals
    rw [lit_eq]
    decide

/-- No root is found among the lines. -/
theorem rootLineDevice_eq_nil {partitions : List Str} (h : ∀ line ∈ partitions, DeviceLine line) :
    rootLineDevice partitions = [] := by
  have hnone : partitions.find? isRootLine = none := by
    rw [List.find?_eq_none]
    intro line hline
    rw [isRootLine_of_deviceLine (h line hline)]
    exact Bool.false_ne_true
  rw [rootLineDevice, hnone]

/-- The parameters, when no root is found. -/
theorem utilsGetKernelParams_eq {settings : BootSettings}
    (h : ∀ line ∈ settings.partitions, DeviceLine line) :
    utilsGetKernelParams settings = some ((if settings.luks = 1 then
        [lit "cryptdevice=" ++ settings.luksDev ++ lit ":" ++ settings.luksRootName] else []) ++
      [lit "rw", lit "quiet"] ++ if settings.raid = 1 then [lit "rd.auto=1"] else []) := by
  rw [utilsGetKernelParams, rootLineDevice_eq_nil h]
  simp

/-- **The command line has no `root=`.** -/
theorem not_rootOnce {settings : BootSettings} (h : ∀ line ∈ settings.partitions, DeviceLine line) :
    ¬ settings.RootOnce := by
  rintro ⟨params, hparams, honce⟩
  rw [utilsGetKernelParams_eq h] at hparams
  obtain rfl := Option.some.inj hparams
  have hnone : ∀ param ∈ (if settings.luks = 1 then
      [lit "cryptdevice=" ++ settings.luksDev ++ lit ":" ++ settings.luksRootName] else []) ++
      [lit "rw", lit "quiet"] ++ (if settings.raid = 1 then [lit "rd.auto=1"] else []),
      ¬ startsWith param (lit "root=") = true := by
    intro param hparam
    rw [List.mem_append, List.mem_append] at hparam
    rcases hparam with (hparam | hparam) | hparam
    · split_ifs at hparam
      · rw [List.mem_singleton.mp hparam]
        simp [startsWith, lit_eq]
      · exact absurd hparam List.not_mem_nil
    · simp only [List.mem_cons, List.not_mem_nil, or_false] at hparam
      rcases hparam with rfl | rfl <;> decide +kernel
    · split_ifs at hparam
      · rw [List.mem_singleton.mp hparam]
        decide +kernel
      · exact absurd hparam List.not_mem_nil
  rw [List.filter_eq_nil_iff.mpr hnone] at honce
  cases honce

/-! ## LUKS -/

theorem infix_append_left {needle str : Str} (before : Str) (h : needle <:+: str) :
    needle <:+: before ++ str :=
  h.trans (List.suffix_append before str).isInfix

theorem infix_cryptdevice (before after : Str) :
    lit "cryptdevice=" <:+: before ++ (lit " cryptdevice=" ++ after) ∧
      lit "cryptdevice=" <:+: before ++ (lit " cryptdevice=UUID=" ++ after) := by
  constructor
  · exact infix_append_left _ ⟨lit " ", after, by simp [lit_eq]⟩
  · exact infix_append_left _ ⟨lit " ", lit "UUID=" ++ after, by simp [lit_eq]⟩

/-- A function leaves `LUKS_DEV` as it was or writes the prefix to it. -/
def WritesPrefix (luksDev luksDev' : Str) : Prop :=
  luksDev' = luksDev ∨ lit "cryptdevice=" <:+: luksDev'

theorem queryPartition_writesPrefix (devices : Devices) (partition : Str) (luks : LuksSettings) :
    WritesPrefix luks.luksDev (devices.queryPartition partition luks).luksDev := by
  by_cases hcrypt : devices.isCrypt partition
  swap
  · rw [Devices.queryPartition_of_not_crypt (by simpa using hcrypt)]
    exact .inl rfl
  rw [Devices.queryPartition_of_crypt hcrypt]
  dsimp only
  unfold Devices.cryptdevice
  split
  · simp only [List.append_assoc]
    exact .inr (infix_cryptdevice _ _).1
  · split
    · simp only [List.append_assoc]
      exact .inr (infix_cryptdevice _ _).2
    · exact .inl (List.append_nil _)

/-- The last device that holds the name decides. -/
theorem forCryptparts_writesPrefix {replies : CryptrootReplies} {cryptparts : Str}
    {functor : Str → CryptSettings → CryptSettings} {crypt crypt' : CryptSettings}
    (hcrypt : crypt'.luksDev = crypt.luksDev)
    (hfunctor : ∀ part crypt, lit "cryptdevice=" <:+: (functor part crypt).luksDev) :
    WritesPrefix crypt.luksDev (replies.forCryptparts cryptparts functor crypt').luksDev := by
  unfold CryptrootReplies.forCryptparts
  generalize (makeMultiline cryptparts false '\n').filter replies.holding.contains = parts
  rcases List.eq_nil_or_concat parts with rfl | ⟨parts, part, rfl⟩
  · exact .inl hcrypt
  · rw [List.concat_eq_append, List.foldl_append]
    exact .inr (hfunctor part _)

theorem getCryptroot_writesPrefix (replies : CryptrootReplies) (crypt : CryptSettings) :
    WritesPrefix crypt.luksDev (getCryptroot replies crypt).luksDev := by
  have hprefix (after : Str) : lit "cryptdevice=" <:+: lit "cryptdevice=" ++ after :=
    (List.prefix_append _ _).isInfix
  have huuid (after : Str) : lit "cryptdevice=" <:+: lit "cryptdevice=UUID=" ++ after :=
    ⟨[], lit "UUID=" ++ after, by simp [lit_eq]⟩
  unfold getCryptroot
  split_ifs
  · exact .inl rfl
  · apply forCryptparts_writesPrefix rfl
    intro part crypt
    simp only [List.append_assoc]
    exact hprefix _
  · apply forCryptparts_writesPrefix rfl
    intro part crypt
    simp only [List.append_assoc]
    exact huuid _
  · apply forCryptparts_writesPrefix rfl
    intro part crypt
    simp only [List.append_assoc]
    exact huuid _
  · exact .inl rfl

theorem getCryptboot_writesPrefix (replies : CryptbootReplies) (crypt : CryptSettings) :
    WritesPrefix crypt.luksDev (getCryptboot replies crypt).luksDev := by
  unfold getCryptboot
  by_cases hcrypt : replies.isCrypt
  swap
  · rw [if_pos (by simpa using hcrypt)]
    exact .inl rfl
  rw [if_neg (by simpa using hcrypt)]
  dsimp only
  split_ifs with hadd
  all_goals
    first
    | exact .inl rfl
    | simp only [List.append_assoc]
      exact .inr (infix_cryptdevice _ _).2

/-- What was written has the prefix. -/
theorem LuksDevWritten.infix {luksDev : Str} (h : LuksDevWritten luksDev) :
    luksDev = [] ∨ lit "cryptdevice=" <:+: luksDev := by
  have hnext {luksDev luksDev' : Str} (hwrites : WritesPrefix luksDev luksDev')
      (ih : luksDev = [] ∨ lit "cryptdevice=" <:+: luksDev) :
      luksDev' = [] ∨ lit "cryptdevice=" <:+: luksDev' := by
    rcases hwrites with rfl | hwrites
    · exact ih
    · exact .inr hwrites
  induction h with
  | empty => exact .inl rfl
  | query _ ih => exact hnext (queryPartition_writesPrefix _ _ _) ih
  | cryptroot _ ih => exact hnext (getCryptroot_writesPrefix _ _) ih
  | cryptboot _ ih => exact hnext (getCryptboot_writesPrefix _ _) ih

/-- **The prefix stands twice**, once `LUKS_DEV` was written. -/
theorem not_cryptdeviceOnce {settings : BootSettings}
    (h : ∀ line ∈ settings.partitions, DeviceLine line) (hluks : settings.luks = 1)
    (hwritten : LuksDevWritten settings.luksDev) (hne : settings.luksDev ≠ []) :
    ¬ settings.CryptdeviceOnce := by
  rintro ⟨params, device, hparams, honce, hprefix, -⟩
  rw [utilsGetKernelParams_eq h, if_pos hluks] at hparams
  obtain rfl := Option.some.inj hparams
  have hparam : lit "cryptdevice=" ++ settings.luksDev ++ lit ":" ++ settings.luksRootName =
      lit "cryptdevice=" ++ device ++ lit ":" ++ settings.luksRootName := by
    rw [List.singleton_append, List.cons_append, List.filter_cons_of_pos] at honce
    · exact (List.cons.inj honce).1
    · simp only [List.append_assoc, startsWith_append]
  rw [List.append_left_inj, List.append_left_inj, List.append_right_inj] at hparam
  rcases hwritten.infix with hnil | hinfix
  · exact hne hnil
  · exact hprefix (hparam ▸ hinfix)

/-! ## Never bootable -/

/-- **No command line can boot the system**: it has no `root=`, and no `cryptdevice=` with the
prefix once. -/
theorem not_boots {settings : BootSettings} (h : ∀ line ∈ settings.partitions, DeviceLine line) :
    ¬ settings.Boots ∧
      (settings.luks = 1 → LuksDevWritten settings.luksDev → settings.luksDev ≠ [] →
        ¬ settings.CryptdeviceOnce) := by
  constructor
  · rintro ⟨hroot, -⟩
    exact not_rootOnce h hroot
  · exact not_cryptdeviceOnce h

/-- The partitions of an encrypted system. -/
def encryptedPartitions : List Str := [lit "/dev/mapper/cryptroot 40G", lit "/dev/sda1 512M"]

/-- The root is a LUKS mapping, which `query_partition` wrote to `LUKS_DEV`. -/
def encryptedBoot : BootSettings :=
  ⟨1, 0, 0, encryptedPartitions, lit " cryptdevice=UUID=5a5a-5a5a:cryptroot", lit "cryptroot", [],
    lit "/dev/mapper/cryptroot"⟩

theorem encryptedPartitions_deviceLine : ∀ line ∈ encryptedPartitions, DeviceLine line := by
  intro line hline
  simp only [encryptedPartitions, List.mem_cons, List.not_mem_nil, or_false] at hline
  rcases hline with rfl | rfl
  · exact ⟨lit "/dev/mapper/cryptroot", lit "40G", by decide +kernel⟩
  · exact ⟨lit "/dev/sda1", lit "512M", by decide +kernel⟩

/-- Neither is there a root, nor is the device readable. -/
theorem encryptedBoot_params :
    utilsGetKernelParams encryptedBoot =
        some [lit "cryptdevice= cryptdevice=UUID=5a5a-5a5a:cryptroot:cryptroot", lit "rw",
          lit "quiet"] ∧
      ¬ encryptedBoot.Boots := by
  constructor
  · decide +kernel
  · rintro ⟨hroot, -⟩
    exact not_rootOnce encryptedPartitions_deviceLine hroot

theorem not_boots_encrypted :
    ¬ encryptedBoot.Boots ∧
      (encryptedBoot.luks = 1 → LuksDevWritten encryptedBoot.luksDev → encryptedBoot.luksDev ≠ [] →
        ¬ encryptedBoot.CryptdeviceOnce) :=
  not_boots encryptedPartitions_deviceLine

end CliInstaller
