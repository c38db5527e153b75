import CliInstaller.General.Splitting
import CliInstaller.Gucc.Fstab
import CliInstaller.Gucc.StringUtils

/-!
# Reading fstab

Every line that is neither blank nor a comment is split at blanks into its fields. The generator
fills up its columns with spaces, so a column that is empty is lost.

## Main definitions

* `fstabFields`, `fstabRows`: the fields of a line, and of all lines
* `fstabFieldsOf`: the six fields that the line of a partition is to have
* `FstabWellFormed`: the file has one line of six fields for each partition that is mounted by it
* `SixFields`: the condition on a partition

## Main results

* `fstabRows_content`: the rows of the generated file
* `fstabWellFormed_iff`: when the generated file is well formed
-/

namespace CliInstaller

open Splitting

/-! ## The fields of a file -/

/-- The fields of a line. -/
def fstabFields (line : Str) : List Str := words Char.isWhitespace line

/-- The fields are those of an entry: there are some, and they do not begin a comment. -/
def isRow (fields : List Str) : Bool := fields.head?.any fun field => field.head? ≠ some '#'

/-- **The fields of all lines** that are neither blank nor comments. -/
def fstabRows (content : Str) : List (List Str) :=
  ((lines content).map fstabFields).filter isRow

theorem fstabRows_append_newline (before after : Str) :
    fstabRows (before ++ '\n' :: after) = fstabRows before ++ fstabRows after := by
  simp only [fstabRows, lines, List.splitOn_append_cons_self, List.map_append, List.filter_append]

/-- Texts of whole lines, one after the other. -/
theorem fstabRows_append {text : Str} (h : text.getLast? = some '\n') (rest : Str) :
    fstabRows (text ++ rest) = fstabRows text ++ fstabRows rest := by
  obtain ⟨before, rfl⟩ := List.getLast?_eq_some_iff.mp h
  have hlast : fstabRows (before ++ ['\n']) = fstabRows before := by
    rw [fstabRows_append_newline]
    exact List.append_nil _
  rw [hlast, List.append_assoc]
  exact fstabRows_append_newline before rest

theorem fstabRows_line {line : Str} (h : '\n' ∉ line) :
    fstabRows line = [fstabFields line].filter isRow := by
  rw [fstabRows, lines, List.splitOn_eq_singleton h, List.map_singleton]

/-- The text has no whitespace. -/
def NoSpace (text : Str) : Prop := ∀ c ∈ text, c.isWhitespace = false

instance (text : Str) : Decidable (NoSpace text) :=
  List.decidableBAll _ text

theorem NoSpace.newline_not_mem {text : Str} (h : NoSpace text) : '\n' ∉ text :=
  fun hmem => absurd (h _ hmem) (by decide)

theorem NoSpace.append {text text' : Str} (h : NoSpace text) (h' : NoSpace text') :
    NoSpace (text ++ text') :=
  List.forall_mem_append.mpr ⟨h, h'⟩

/-- A text that is there is one field. -/
def fieldOf (text : Str) : List Str := [text].filter fun text => !text.isEmpty

theorem fieldOf_of_ne_nil {text : Str} (h : text ≠ []) : fieldOf text = [text] := by
  cases text with
  | nil => exact absurd rfl h
  | cons c text => rfl

theorem fstabFields_of_noSpace {text : Str} (h : NoSpace text) : fstabFields text = fieldOf text :=
  words_of_forall h

/-- A column. -/
theorem fstabFields_padRight {text rest : Str} (width : Nat) (h : NoSpace text) :
    fstabFields (padRight width text ++ ' ' :: rest) = fieldOf text ++ fstabFields rest :=
  words_replicate (by decide) _ h

theorem padRight_newline_not_mem {text : Str} (width : Nat) (h : NoSpace text) :
    '\n' ∉ padRight width text := by
  intro hmem
  rcases List.mem_append.mp hmem with hmem | hmem
  · exact h.newline_not_mem hmem
  · exact absurd (List.eq_of_mem_replicate hmem) (by decide)

/-! ## The rows of the generated file -/

namespace FstabEntry

/-- The number is one digit. -/
def passText (entry : FstabEntry) : Str := (toString entry.pass).toList

/-- The fields of an entry, without the empty ones. -/
def row (entry : FstabEntry) : List Str :=
  fieldOf entry.device ++ fieldOf entry.dir ++ fieldOf entry.fstype ++ fieldOf entry.options ++
    [['0'], entry.passText]

/-- No field has whitespace, and the number is one of those that are used. -/
structure Tidy (entry : FstabEntry) : Prop where
  comment : NoSpace entry.comment
  device : NoSpace entry.device
  dir : NoSpace entry.dir
  fstype : NoSpace entry.fstype
  options : NoSpace entry.options
  pass : entry.pass ≤ 2

/-- The text is a comment, the line of the entry and an empty line. -/
theorem text_eq (entry : FstabEntry) :
    entry.text = (['#', ' '] ++ entry.comment) ++ '\n' ::
      ((padRight 41 entry.device ++ ' ' :: (padRight 14 entry.dir ++ ' ' ::
        (padRight 7 entry.fstype ++ ' ' :: (padRight 10 entry.options ++ ' ' ::
          (['0'] ++ ' ' :: entry.passText))))) ++ '\n' :: ['\n']) := by
  simp [text, passText, lit_eq]

theorem rows_text {entry : FstabEntry} (h : entry.Tidy) :
    fstabRows entry.text = [entry.row].filter isRow := by
  obtain ⟨hcomment, hdevice, hdir, hfstype, hoptions, hpass⟩ := h
  have hpassText : NoSpace entry.passText ∧ entry.passText ≠ [] := by
    unfold passText
    rcases (by omega : entry.pass = 0 ∨ entry.pass = 1 ∨ entry.pass = 2) with h | h | h <;> rw [h] <;>
      decide +kernel
  have hzero : NoSpace ['0'] := by decide
  have hfirst : fstabRows (['#', ' '] ++ entry.comment) = [] := by
    have hline : '\n' ∉ ['#', ' '] ++ entry.comment := by
      simp [hcomment.newline_not_mem]
    have hfields : fstabFields (['#', ' '] ++ entry.comment) = ['#'] :: fieldOf entry.comment := by
      rw [← fstabFields_of_noSpace hcomment]
      exact words_append_cons (by decide) ['#'] entry.comment
    rw [fstabRows_line hline, hfields]
    rfl
  have hfields : fstabFields (padRight 41 entry.device ++ ' ' :: (padRight 14 entry.dir ++ ' ' ::
      (padRight 7 entry.fstype ++ ' ' :: (padRight 10 entry.options ++ ' ' ::
        (['0'] ++ ' ' :: entry.passText))))) = entry.row := by
    rw [fstabFields_padRight _ hdevice, fstabFields_padRight _ hdir, fstabFields_padRight _ hfstype,
      fstabFields_padRight _ hoptions, fstabFields, words_append_cons (by decide), ← fstabFields,
      ← fstabFields, fstabFields_of_noSpace hzero, fstabFields_of_noSpace hpassText.1,
      fieldOf_of_ne_nil hpassText.2]
    simp [row, fieldOf]
  have hline : '\n' ∉ padRight 41 entry.device ++ ' ' :: (padRight 14 entry.dir ++ ' ' ::
      (padRight 7 entry.fstype ++ ' ' :: (padRight 10 entry.options ++ ' ' ::
        (['0'] ++ ' ' :: entry.passText)))) := by
    simp [padRight_newline_not_mem, hdevice, hdir, hfstype, hoptions,
      hpassText.1.newline_not_mem]
  rw [text_eq, fstabRows_append_newline, hfirst, fstabRows_append_newline, fstabRows_line hline,
    hfields]
  exact List.append_nil _

end FstabEntry

theorem fstabRows_header : fstabHeader.getLast? = some '\n' ∧ fstabRows fstabHeader = [] := by
  rw [fstabHeader, lit_ofList]
  decide +kernel

/-- **The rows of the generated file** are those of its entries. -/
theorem fstabRows_content {partitions : List Partition}
    (h : ∀ partition ∈ partitions, ∀ entry, fstabLine partition = some entry → entry.Tidy) :
    fstabRows (generateFstabContent partitions) =
      ((partitions.filterMap fstabLine).map FstabEntry.row).filter isRow := by
  -- Induction on the entries: each ends in a newline, so its rows are read apart from the rest.
  have hentries (entries : List FstabEntry) (hentries : ∀ entry ∈ entries, entry.Tidy) :
      fstabRows (entries.flatMap FstabEntry.text) =
        (entries.map FstabEntry.row).filter isRow := by
    induction entries with
    | nil => rfl
    | cons entry entries ih =>
      have hlast : entry.text.getLast? = some '\n' := by
        rw [FstabEntry.text, List.getLast?_append]
        rfl
      rw [List.flatMap_cons, fstabRows_append hlast,
        FstabEntry.rows_text (hentries entry List.mem_cons_self),
        ih fun entry hentry => hentries entry (List.mem_cons_of_mem _ hentry), ← List.filter_append]
      rfl
  rw [generateFstabContent_eq, fstabRows_append fstabRows_header.1, fstabRows_header.2,
    List.nil_append]
  refine hentries _ fun entry hentry => ?_
  obtain ⟨partition, hpartition, hline⟩ := List.mem_filterMap.mp hentry
  exact h partition hpartition entry hline

/-! ## When the file is well formed -/

/-- The type of a partition is neither zfs nor swap, up to case. -/
def IsMounted (partition : Partition) : Prop :=
  stringTolower partition.fstype ≠ lit "zfs" ∧ getConvertedFs partition.fstype ≠ lit "swap"

instance (partition : Partition) : Decidable (IsMounted partition) := by
  unfold IsMounted
  infer_instance

/-- The fsck pass: none for btrfs, first the root. -/
def fsckPass (mountpoint fstype : Str) : Nat :=
  if fstype = lit "btrfs" then 0 else if mountpoint = ['/'] then 1 else 2

/-- **The six fields** of the line that mounts a partition. -/
def fstabFieldsOf (partition : Partition) : List Str :=
  let fstype := getConvertedFs partition.fstype
  [fstabDevice partition, partition.mountpoint, fstype,
    getMountOptions partition.mountOpts (partition.subvolume.getD []) fstype, ['0'],
    (toString (fsckPass partition.mountpoint fstype)).toList]

/-- **The file is well formed**: in the order of the list, it has the line of each partition whose
type is neither zfs nor swap. -/
def FstabWellFormed (partitions : List Partition) : Prop :=
  fstabRows (generateFstabContent partitions) =
    (partitions.filter (IsMounted ·)).map fstabFieldsOf

/-- The strings of a partition have no whitespace, and those it is mounted by are not empty unless it
is swap. -/
structure FstabInput (partition : Partition) : Prop where
  fstype : NoSpace partition.fstype
  mountpoint : NoSpace partition.mountpoint
  uuidStr : NoSpace partition.uuidStr
  device : NoSpace partition.device
  mountOpts : NoSpace partition.mountOpts
  subvolume : ∀ subvolume ∈ partition.subvolume, NoSpace subvolume
  luksMapperName : ∀ name ∈ partition.luksMapperName, NoSpace name
  ne_nil : getConvertedFs partition.fstype ≠ lit "swap" →
    partition.device ≠ [] ∧ partition.mountpoint ≠ [] ∧ partition.fstype ≠ []

/-- The device field of the partition begins a comment. -/
def Commented (partition : Partition) : Prop := (fstabDevice partition).head? = some '#'

instance (partition : Partition) : Decidable (Commented partition) := by
  unfold Commented
  infer_instance

/-- **The condition on a partition**: one of type zfs up to case is "zfs" exactly, or its line is
read as a comment; and one that is mounted has a line that is not, some options, and is not mounted
at "swap" unless it is btrfs. -/
def SixFields (partition : Partition) : Prop :=
  (stringTolower partition.fstype = lit "zfs" →
      partition.fstype = lit "zfs" ∨ Commented partition) ∧
    (IsMounted partition →
      ¬Commented partition ∧
      (partition.mountOpts ≠ [] ∨
        getConvertedFs partition.fstype = lit "btrfs" ∧ partition.subvolume.getD [] ≠ []) ∧
      (partition.mountpoint = lit "swap" → getConvertedFs partition.fstype = lit "btrfs"))

section Names

variable {partition : Partition}

/-- A letter in lower case is no whitespace. -/
theorem isWhitespace_toLower {c : Char} (h : c.isWhitespace = false) :
    c.toLower.isWhitespace = false := by
  by_cases hletter : c.val ≥ 'A'.val ∧ c.val ≤ 'Z'.val
  · have hval : c.toLower.val = c.val + ('a'.val - 'A'.val) := by
      exact congrArg Char.val (dif_pos hletter)
    have hlarge : 65 ≤ c.val.toNat ∧ c.val.toNat ≤ 90 := hletter
    have hnat : c.toLower.val.toNat = c.val.toNat + 32 := by
      have hdiff : ('a'.val - 'A'.val).toNat = 32 := rfl
      rw [hval, UInt32.toNat_add, hdiff, Nat.mod_eq_of_lt (by omega)]
    have hnot (d : Char) (hd : d.val.toNat < 97) : c.toLower ≠ d := by
      rintro rfl
      omega
    simp [Char.isWhitespace, hnot]
  · have hsame : c.toLower = c := dif_neg hletter
    rwa [hsame]

theorem noSpace_stringTolower {text : Str} (h : NoSpace text) : NoSpace (stringTolower text) := by
  intro c hc
  obtain ⟨d, hd, rfl⟩ := List.mem_map.mp hc
  exact isWhitespace_toLower (h d hd)

theorem noSpace_convertFsnameFstab {fsname : Str} (h : NoSpace fsname) :
    NoSpace (convertFsnameFstab fsname) := by
  unfold convertFsnameFstab
  split_ifs
  · rw [lit_ofList]; decide
  · rw [lit_ofList]; decide
  · exact h

/-- The type zfs has the same name in fstab, and no other has. -/
theorem getConvertedFs_eq_zfs {fstype : Str} :
    getConvertedFs fstype = lit "zfs" ↔ stringTolower fstype = lit "zfs" := by
  have hvfat : lit "vfat" ≠ lit "zfs" := by simp [lit_eq]
  have hswap : lit "swap" ≠ lit "zfs" := by simp [lit_eq]
  constructor
  · intro h
    unfold getConvertedFs convertFsnameFstab at h
    split_ifs at h
    · exact absurd h hvfat
    · exact absurd h hswap
    · exact h
  · intro h
    rw [getConvertedFs, h]
    decide +kernel

theorem getConvertedFs_ne_nil {fstype : Str} (h : fstype ≠ []) : getConvertedFs fstype ≠ [] := by
  unfold getConvertedFs convertFsnameFstab
  split_ifs
  · simp [lit_eq]
  · simp [lit_eq]
  · simpa [stringTolower] using h

theorem hasFstabLine_of_isMounted (h : IsMounted partition) : HasFstabLine partition := by
  refine ⟨?_, h.2⟩
  intro hzfs
  refine h.1 ?_
  rw [hzfs]
  decide +kernel

theorem fstabDevice_ne_nil (h : partition.device ≠ []) : fstabDevice partition ≠ [] := by
  have hmapper : lit "/dev/mapper/" ≠ [] := by simp [lit_eq]
  have huuid : lit "UUID=" ≠ [] := by simp [lit_eq]
  unfold fstabDevice
  split
  · simp [hmapper]
  · split_ifs
    · simp [huuid]
    · exact h

theorem getMountOptions_ne_nil_iff {mountOpts subvolume fstype : Str} :
    getMountOptions mountOpts subvolume fstype ≠ [] ↔
      mountOpts ≠ [] ∨ fstype = lit "btrfs" ∧ subvolume ≠ [] := by
  have hsubvol : lit "subvol=" ≠ [] := by simp [lit_eq]
  unfold getMountOptions
  by_cases hbtrfs : fstype = lit "btrfs" <;> by_cases hempty : subvolume = [] <;>
    simp [hbtrfs, hempty, hsubvol]

/-- The pass number is the one that is meant, except for what is mounted at "swap". -/
theorem getCheckNumber_eq {mountpoint fstype : Str} :
    getCheckNumber mountpoint fstype =
      if mountpoint = lit "swap" ∧ fstype ≠ lit "btrfs" then 0 else fsckPass mountpoint fstype := by
  have hroot : ['/'] ≠ lit "swap" := by simp [lit_eq]
  unfold getCheckNumber fsckPass
  by_cases hbtrfs : fstype = lit "btrfs"
  · simp [hbtrfs]
  · by_cases hmount : mountpoint = ['/']
    · simp [hbtrfs, hmount, hroot]
    · by_cases hswap : mountpoint = lit "swap" <;> simp [hbtrfs, hmount, hswap, Ne.symm hroot]

/-- What is given has no whitespace, so neither have the fields. -/
theorem FstabInput.tidy (h : FstabInput partition) {entry : FstabEntry}
    (hentry : fstabLine partition = some entry) : entry.Tidy := by
  obtain ⟨-, rfl⟩ := fstabLine_eq_some_iff.mp hentry
  have hfstype := noSpace_convertFsnameFstab (noSpace_stringTolower h.fstype)
  refine ⟨h.device, ?_, h.mountpoint, hfstype, ?_, ?_⟩
  · dsimp only
    unfold fstabDevice
    split
    next name hname => exact NoSpace.append (by rw [lit_ofList]; decide) (h.luksMapperName name hname)
    next =>
      split_ifs
      · exact NoSpace.append (by rw [lit_ofList]; decide) h.uuidStr
      · exact h.device
  · have hsubvolume : NoSpace (partition.subvolume.getD []) := by
      rcases hsome : partition.subvolume with _ | subvolume
      · exact fun c hc => absurd hc List.not_mem_nil
      · exact h.subvolume subvolume hsome
    dsimp only
    unfold getMountOptions
    split_ifs
    · exact ((NoSpace.append (by rw [lit_ofList]; decide) hsubvolume).append (by decide)).append h.mountOpts
    · exact h.mountOpts
  · dsimp only
    unfold getCheckNumber
    split_ifs <;> omega

end Names

/-- The fields of the line of a partition that has one, as they are read. -/
def rowOf (partition : Partition) : List Str :=
  let fstype := getConvertedFs partition.fstype
  [fstabDevice partition, partition.mountpoint, fstype] ++
    fieldOf (getMountOptions partition.mountOpts (partition.subvolume.getD []) fstype) ++
    [['0'], (toString (getCheckNumber partition.mountpoint fstype)).toList]

/-- What is read of the line of a partition. -/
theorem row_fstabLine {partition : Partition} (h : FstabInput partition) :
    ((fstabLine partition).map FstabEntry.row).filter isRow =
      if HasFstabLine partition ∧ ¬Commented partition then some (rowOf partition) else none := by
  by_cases hline : HasFstabLine partition
  swap
  · have hnone : fstabLine partition = none := by
      rcases hsome : fstabLine partition with _ | entry
      · rfl
      · exact absurd (fstabLine_eq_some_iff.mp hsome).1 hline
    simp [hnone, hline]
  · obtain ⟨hdevice, hmountpoint, hfstype⟩ := h.ne_nil hline.2
    have hrow := fieldOf_of_ne_nil (fstabDevice_ne_nil hdevice)
    have hisRow : isRow (rowOf partition) = !decide (Commented partition) := by
      simp [isRow, rowOf, Commented]
    have hsome := fstabLine_eq_some_iff.mpr ⟨hline, rfl⟩
    have heq : (fstabLine partition).map FstabEntry.row = some (rowOf partition) := by
      rw [hsome, Option.map_some]
      simp [FstabEntry.row, FstabEntry.passText, rowOf, hrow, fieldOf_of_ne_nil hmountpoint,
        fieldOf_of_ne_nil (getConvertedFs_ne_nil hfstype)]
    rw [heq, Option.filter_some, hisRow]
    by_cases hcomment : Commented partition <;> simp [hline, hcomment]

theorem filterMap_ite {α β : Type} (p : α → Prop) [DecidablePred p] (f : α → β) (l : List α) :
    (l.filterMap fun a => if p a then some (f a) else none) = (l.filter (p ·)).map f := by
  induction l with
  | nil => rfl
  | cons a l ih => by_cases ha : p a <;> simp [ha, ih]

/-- The rows of the generated file, partition by partition. -/
theorem fstabRows_eq {partitions : List Partition}
    (h : ∀ partition ∈ partitions, FstabInput partition) :
    fstabRows (generateFstabContent partitions) =
      partitions.filterMap fun partition =>
        if HasFstabLine partition ∧ ¬Commented partition then some (rowOf partition) else none := by
  rw [fstabRows_content fun partition hmem entry hentry => (h partition hmem).tidy hentry,
    List.map_filterMap, List.filter_filterMap]
  exact List.filterMap_congr fun partition hmem => row_fstabLine (h partition hmem)

/-- A partition that meets the condition has the line it is to have, or none. -/
theorem SixFields.row {partition : Partition} (h : SixFields partition) :
    (if HasFstabLine partition ∧ ¬Commented partition then some (rowOf partition) else none) =
      if IsMounted partition then some (fstabFieldsOf partition) else none := by
  obtain ⟨hzfs, hmounted⟩ := h
  by_cases hmount : IsMounted partition
  · obtain ⟨hcomment, hoptions, hswap⟩ := hmounted hmount
    have hfields := fieldOf_of_ne_nil (getMountOptions_ne_nil_iff.mpr hoptions)
    have hpass : getCheckNumber partition.mountpoint (getConvertedFs partition.fstype) =
        fsckPass partition.mountpoint (getConvertedFs partition.fstype) := by
      rw [getCheckNumber_eq, if_neg]
      rintro ⟨hmountpoint, hbtrfs⟩
      exact hbtrfs (hswap hmountpoint)
    rw [if_pos ⟨hasFstabLine_of_isMounted hmount, hcomment⟩, if_pos hmount, rowOf, fstabFieldsOf,
      hfields, hpass]
    rfl
  · rw [if_neg hmount, if_neg]
    rintro ⟨⟨hnot, hswap⟩, hcomment⟩
    by_cases hlower : stringTolower partition.fstype = lit "zfs"
    · rcases hzfs hlower with heq | hcommented
      · exact hnot heq
      · exact hcomment hcommented
    · exact hmount ⟨hlower, hswap⟩

section Members

variable {partitions : List Partition} {partition : Partition}

/-- Where the file is well formed, what is read of a partition is the line of a mounted one. -/
theorem FstabWellFormed.exists_of_row (h : FstabWellFormed partitions)
    (hinput : ∀ partition ∈ partitions, FstabInput partition) (hmem : partition ∈ partitions)
    (hline : HasFstabLine partition) (hcomment : ¬Commented partition) :
    ∃ mounted, IsMounted mounted ∧ fstabFieldsOf mounted = rowOf partition := by
  have hin : rowOf partition ∈ (partitions.filter (IsMounted ·)).map fstabFieldsOf := by
    rw [← h, fstabRows_eq hinput, filterMap_ite]
    exact List.mem_map_of_mem (List.mem_filter.mpr ⟨hmem, decide_eq_true ⟨hline, hcomment⟩⟩)
  obtain ⟨mounted, hfilter, hrow⟩ := List.mem_map.mp hin
  exact ⟨mounted, of_decide_eq_true (List.mem_filter.mp hfilter).2, hrow⟩

/-- And each mounted partition is read. -/
theorem FstabWellFormed.isRow_of_isMounted (h : FstabWellFormed partitions)
    (hmem : partition ∈ partitions) (hmount : IsMounted partition) :
    isRow (fstabFieldsOf partition) = true := by
  have hin : fstabFieldsOf partition ∈ fstabRows (generateFstabContent partitions) := by
    rw [h]
    exact List.mem_map_of_mem (List.mem_filter.mpr ⟨hmem, decide_eq_true hmount⟩)
  exact (List.mem_filter.mp hin).2

theorem FstabWellFormed.sixFields (h : FstabWellFormed partitions)
    (hinput : ∀ partition ∈ partitions, FstabInput partition) (hmem : partition ∈ partitions) :
    SixFields partition := by
  refine ⟨fun hlower => ?_, fun hmount => ?_⟩
  -- A line of type zfs is not among those of the mounted partitions.
  · by_contra hnot
    simp only [not_or] at hnot
    obtain ⟨hne, hcomment⟩ := hnot
    have hzfs := getConvertedFs_eq_zfs.mpr hlower
    have hline : HasFstabLine partition := ⟨hne, by rw [hzfs]; decide +kernel⟩
    obtain ⟨mounted, hmount, hrow⟩ := h.exists_of_row hinput hmem hline hcomment
    simp only [fstabFieldsOf, rowOf, List.cons_append, List.cons.injEq] at hrow
    exact hmount.1 (getConvertedFs_eq_zfs.mp (hrow.2.2.1.trans hzfs))
  · have hline := hasFstabLine_of_isMounted hmount
    have hcomment : ¬Commented partition := by
      have hrow := h.isRow_of_isMounted hmem hmount
      simpa [isRow, fstabFieldsOf, Commented] using hrow
    obtain ⟨mounted, hmounted, hrow⟩ := h.exists_of_row hinput hmem hline hcomment
    have hoptions : getMountOptions partition.mountOpts (partition.subvolume.getD [])
        (getConvertedFs partition.fstype) ≠ [] := by
      intro hempty
      have hlength := congrArg List.length hrow
      simp [fstabFieldsOf, rowOf, hempty, fieldOf] at hlength
    refine ⟨hcomment, getMountOptions_ne_nil_iff.mp hoptions, fun hswap => ?_⟩
    by_contra hbtrfs
    rw [fstabFieldsOf, rowOf, fieldOf_of_ne_nil hoptions] at hrow
    simp only [List.cons_append, List.nil_append, List.cons.injEq, and_true] at hrow
    obtain ⟨-, hmountpoint, hfstype, -, -, hpass⟩ := hrow
    have hroot : lit "swap" ≠ ['/'] := by simp [lit_eq]
    rw [hmountpoint, hfstype, getCheckNumber_eq, if_pos ⟨hswap, hbtrfs⟩, fsckPass, if_neg hbtrfs,
      hswap, if_neg hroot] at hpass
    exact absurd hpass (by decide +kernel)

end Members

/-- **The generated file is well formed** exactly when every partition meets the condition. -/
theorem fstabWellFormed_iff (partitions : List Partition)
    (h : ∀ partition ∈ partitions, FstabInput partition) :
    FstabWellFormed partitions ↔ ∀ partition ∈ partitions, SixFields partition := by
  constructor
  · intro hwell partition hmem
    exact hwell.sixFields h hmem
  · intro hsix
    rw [FstabWellFormed, fstabRows_eq h, ← filterMap_ite]
    exact List.filterMap_congr fun partition hmem => (hsix partition hmem).row

/-- A root of one file system, without options. -/
def plainRoot (mountOpts : Str) : Partition :=
  { Partition.empty with
    fstype := lit "ext4", mountpoint := ['/'], device := lit "/dev/sda1", mountOpts }

theorem isMounted_plainRoot (mountOpts : Str) : IsMounted (plainRoot mountOpts) := by
  have hlower : stringTolower (lit "ext4") = lit "ext4" := by rw [lit_ofList]; decide
  refine ⟨?_, ?_⟩
  · show stringTolower (lit "ext4") ≠ lit "zfs"
    rw [hlower]
    simp [lit_eq]
  · show getConvertedFs (lit "ext4") ≠ lit "swap"
    rw [getConvertedFs, hlower]
    simp [convertFsnameFstab, lit_eq]

theorem fstabInput_plainRoot {mountOpts : Str} (h : NoSpace mountOpts) :
    FstabInput (plainRoot mountOpts) := by
  have hext4 : NoSpace (lit "ext4") := by rw [lit_ofList]; decide
  have hdevice : NoSpace (lit "/dev/sda1") := by rw [lit_ofList]; decide
  have hne : lit "/dev/sda1" ≠ [] ∧ ['/'] ≠ [] ∧ lit "ext4" ≠ [] := by simp [lit_eq]
  have hroot : NoSpace ['/'] := by decide
  have hnil : NoSpace [] := by decide
  refine ⟨hext4, hroot, hnil, hdevice, h, ?_, ?_, fun _ => hne⟩
  · rintro subvolume ⟨⟩
  · rintro name ⟨⟩

theorem fstabWellFormed_iff_plainRoot : FstabWellFormed [plainRoot (lit "defaults,noatime")] := by
  refine (fstabWellFormed_iff [plainRoot (lit "defaults,noatime")] ?_).mpr ?_
  · intro partition hmem
    rw [List.mem_singleton.mp hmem]
    exact fstabInput_plainRoot (by rw [lit_ofList]; decide)
  · intro partition hmem
    rw [List.mem_singleton.mp hmem]
    refine ⟨fun h => absurd h (isMounted_plainRoot _).1, fun _ => ⟨?_, .inl ?_, ?_⟩⟩
    · simp [Commented, fstabDevice, plainRoot, Partition.empty, lit_eq]
    · show lit "defaults,noatime" ≠ []
      simp [lit_eq]
    · intro hswap
      simp [plainRoot, lit_eq] at hswap

/-- Without options a line has five fields. -/
theorem fstabWellFormed_plainRoot_nil :
    FstabInput (plainRoot []) ∧ ¬FstabWellFormed [plainRoot []] := by
  have hinput : FstabInput (plainRoot []) := fstabInput_plainRoot (by decide)
  refine ⟨hinput, fun hwell => ?_⟩
  have hall : ∀ partition ∈ [plainRoot []], FstabInput partition := by
    intro partition hmem
    exact List.mem_singleton.mp hmem ▸ hinput
  have hmounted : IsMounted (plainRoot []) := isMounted_plainRoot []
  obtain ⟨-, hoptions, -⟩ := (hwell.sixFields hall List.mem_cons_self).2 hmounted
  simp [plainRoot, Partition.empty] at hoptions

end CliInstaller
