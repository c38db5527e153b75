import CliInstaller.Cpp.Files
import CliInstaller.Gucc.StringUtils

/-!
# `gucc::mtab`: the table of mounted file systems

Source: `gucc/include/gucc/mtab.hpp`, `gucc/src/mtab.cpp`.

## Main definitions

* `readMtab`: reading line by line until the end of the file
* `parseMtabContent`, `parseMtab`: the entries whose mountpoint starts with a root
* `mtabEntry`: the entry a line holds, whatever its mountpoint
* `entriesInside`: the entries of the mounts inside a target

## Main results

* `parseMtab_eq`: the entries are those of the lines, filtered by their mountpoint
* `parseMtabContent_iff`: when they are those of the mounts inside the target
-/

namespace CliInstaller

open Splitting

structure MTabEntry where
  device : Str
  mountpoint : Str
  deriving DecidableEq, Repr

/-- The lines that `std::getline` delivers until it fails; the last call finds the end of the file
and delivers an empty line. -/
def getLines (content : Str) : List Str :=
  let split := lines content
  if split.getLast? = some [] then split else split ++ [[]]

/-- `read_mtab`: `none` when the file cannot be opened. -/
def readMtab (file : Option Str) : Option Str :=
  file.map fun content => join (getLines content) '\n'

/-- The body of the loop over the lines. The first piece is read before the pieces are counted: in a line
of spaces it is empty, and not used. -/
def parseMtabLine (rootMountpoint line : Str) : Option MTabEntry :=
  if line.isEmpty || startsWith line ['#'] then none
  else
    match makeSplitView line ' ' with
    | device :: mountpoint :: _ :: _ =>
      if !startsWith device ['#'] && startsWith mountpoint rootMountpoint then
        some ⟨device, mountpoint⟩
      else none
    | _ => none

def parseMtabContent (mtabContent rootMountpoint : Str) : List MTabEntry :=
  (makeSplitView mtabContent '\n').filterMap (parseMtabLine rootMountpoint)

/-- `parse_mtab`: `none` when an argument or the table is empty. -/
def parseMtab (rootMountpoint : Str) (file : Option Str) : Option (List MTabEntry) :=
  if rootMountpoint.isEmpty then none
  else
    match readMtab file with
    | none => none
    | some fileContent =>
      if fileContent.isEmpty then none
      else some (parseMtabContent fileContent rootMountpoint)

/-! ## The entries of a table -/

/-- The entry a line holds. -/
def mtabEntry (line : Str) : Option MTabEntry :=
  if startsWith line ['#'] then none
  else
    match makeSplitView line ' ' with
    | device :: mountpoint :: _ :: _ =>
      if startsWith device ['#'] then none else some ⟨device, mountpoint⟩
    | _ => none

/-- All mountpoints of a table, in its order. -/
def mounted (text : Str) : List Str := ((lines text).filterMap mtabEntry).map MTabEntry.mountpoint

/-- A line is parsed to its entry, if the mountpoint starts with the root. -/
theorem parseMtabLine_eq (root line : Str) :
    parseMtabLine root line =
      (mtabEntry line).filter fun entry => startsWith entry.mountpoint root := by
  rw [parseMtabLine, mtabEntry]
  rcases eq_or_ne line [] with rfl | hne
  · rfl
  by_cases hcomment : startsWith line ['#']
  · simp [hcomment]
  · simp only [hcomment, List.isEmpty_eq_false_iff.mpr hne, Bool.or_self, Bool.false_eq_true, if_false]
    rcases makeSplitView line ' ' with _ | ⟨device, _ | ⟨mountpoint, _ | ⟨fstype, rest⟩⟩⟩
    · rfl
    · rfl
    · rfl
    · by_cases hd : startsWith device ['#'] <;> by_cases hr : startsWith mountpoint root <;>
        simp [hd, hr, Option.filter]

/-- The parsed entries are those of the lines, filtered by their mountpoint. -/
theorem parseMtabContent_eq (text root : Str) :
    parseMtabContent text root =
      ((lines text).filterMap mtabEntry).filter fun entry => startsWith entry.mountpoint root := by
  have hentries : (makeSplitView text '\n').filterMap (parseMtabLine root) =
      (lines text).filterMap (parseMtabLine root) := by
    rw [makeSplitView_eq, pieces, List.filterMap_filter, lines]
    apply List.filterMap_congr
    intro line _
    rcases eq_or_ne line [] with rfl | hne
    · rfl
    · simp [hne]
  rw [parseMtabContent, hentries, List.filter_filterMap]
  apply List.filterMap_congr
  intro line _
  exact parseMtabLine_eq root line

/-- Reading line by line adds a final newline where there is none. -/
theorem readMtab_some (content : Str) :
    readMtab (some content) = some content ∨
      content ≠ [] ∧ readMtab (some content) = some (content ++ ['\n']) := by
  simp only [readMtab, Option.map_some, join_eq, getLines]
  -- The last call of `std::getline` delivers the empty line after a final newline.
  by_cases hlast : (lines content).getLast? = some []
  · rw [if_pos hlast, intercalate_lines]
    exact .inl rfl
  · rw [if_neg hlast, intercalate_concat_nil (lines_ne_nil content), intercalate_lines]
    refine .inr ⟨?_, rfl⟩
    rintro rfl
    exact hlast rfl

/-- Parsing a table is parsing its text. -/
theorem parseMtab_eq {root content : Str} (hroot : root ≠ []) (hcontent : content ≠ []) :
    parseMtab root (some content) = some (parseMtabContent content root) := by
  rw [parseMtab, if_neg (by simpa using hroot)]
  rcases readMtab_some content with h | ⟨-, h⟩
  · simp [h, hcontent]
  · have hsame : makeSplitView (content ++ ['\n']) '\n' = makeSplitView content '\n' := by
      rw [makeSplitView_eq, makeSplitView_eq, pieces_concat_self]
    simp [h, parseMtabContent, hsame]

theorem parseMtab_eq_none {root content : Str} (h : root = [] ∨ content = []) :
    parseMtab root (some content) = none := by
  rcases h with rfl | rfl
  · rfl
  · rw [parseMtab]
    split_ifs
    · rfl
    · rfl

/-! ## The mounts inside the target -/

/-- The path is the target, or lies inside it. -/
def insideTarget (root path : Str) : Bool := path = root || startsWith path (root ++ ['/'])

/-- The entry of a line, if it is no comment, has three fields, and its mount is inside the
target. -/
def entryInside (root line : Str) : Option MTabEntry :=
  if startsWith line ['#'] then none
  else
    match (line.splitOn ' ').filter fun field => field ≠ [] with
    | device :: mountpoint :: _ :: _ =>
      if !startsWith device ['#'] && insideTarget root mountpoint then some ⟨device, mountpoint⟩
      else none
    | _ => none

/-- The entries of the mounts inside the target, in the order of the table. -/
def entriesInside (text root : Str) : List MTabEntry := (lines text).filterMap (entryInside root)

/-- An entry of the table is not taken for one inside the target by its first characters only. -/
def NoSibling (text root : Str) : Prop :=
  ∀ entry ∈ (lines text).filterMap mtabEntry,
    startsWith entry.mountpoint root = true → insideTarget root entry.mountpoint = true

theorem startsWith_of_insideTarget {root path : Str} (h : insideTarget root path = true) :
    startsWith path root = true := by
  rw [insideTarget, Bool.or_eq_true, decide_eq_true_iff, startsWith_iff] at h
  rw [startsWith_iff]
  rcases h with rfl | h
  · exact List.prefix_refl _
  · exact (List.prefix_append root ['/']).trans h

theorem entryInside_eq (root line : Str) :
    entryInside root line = (mtabEntry line).filter fun entry => insideTarget root entry.mountpoint := by
  rw [entryInside, mtabEntry]
  split_ifs with hcomment
  · rfl
  · rw [makeSplitView_eq, pieces]
    rcases (line.splitOn ' ').filter fun field => field ≠ [] with
      _ | ⟨device, _ | ⟨mountpoint, _ | ⟨fstype, rest⟩⟩⟩
    · rfl
    · rfl
    · rfl
    · by_cases hd : startsWith device ['#'] <;> by_cases hr : insideTarget root mountpoint <;>
        simp [hd, hr, Option.filter]

/-- **The entries are those of the mounts inside the target** iff no mount outside has a path that starts
with the characters of the target. -/
theorem parseMtabContent_iff {text root : Str} :
    parseMtabContent text root = entriesInside text root ↔ NoSibling text root := by
  have hinside : entriesInside text root =
      ((lines text).filterMap mtabEntry).filter fun entry =>
        insideTarget root entry.mountpoint := by
    rw [entriesInside, List.filter_filterMap]
    exact List.filterMap_congr fun line _ => entryInside_eq root line
  rw [parseMtabContent_eq, hinside]
  constructor
  · intro h entry hentry hstart
    have hmem : entry ∈ ((lines text).filterMap mtabEntry).filter fun entry =>
        startsWith entry.mountpoint root := List.mem_filter.mpr ⟨hentry, hstart⟩
    rw [h] at hmem
    exact (List.mem_filter.mp hmem).2
  · intro h
    refine List.filter_congr fun entry hentry => ?_
    rw [Bool.eq_iff_iff]
    exact ⟨h entry hentry, startsWith_of_insideTarget⟩

/-- A table with a mount beside the target whose path starts with the same characters. -/
def siblingTable : Str := lit "/dev/sda2 /mnt ext4 rw 0 0\n/dev/sdb1 /mnt2 ext4 rw 0 0\n"

theorem parseMtabContent_sibling :
    parseMtabContent siblingTable (lit "/mnt") =
        [⟨lit "/dev/sda2", lit "/mnt"⟩, ⟨lit "/dev/sdb1", lit "/mnt2"⟩] ∧
      entriesInside siblingTable (lit "/mnt") = [⟨lit "/dev/sda2", lit "/mnt"⟩] ∧
      parseMtabContent siblingTable (lit "/mnt") ≠ entriesInside siblingTable (lit "/mnt") :=
  ⟨by decide +kernel, by decide +kernel, by decide +kernel⟩

end CliInstaller
