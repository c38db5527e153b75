import CliInstaller.Gucc.StringUtils

/-!
# The prepared partitions of the settings

`parse_config` writes every entry of the partitions array into one string, its five fields
separated by tabs; `make_partitions_prepared` splits the string again, with a splitter that drops
empty pieces, and indexes the pieces unchecked.

Source: `src/utils.cpp`, `src/simple_tui.cpp`.

## Main definitions

* `Json`: the values of the parsed settings
* `parsePartition`, `parsePartitions`: the entries that are accepted, and their strings
* `partInfo`: the fields read back from a string

## Main results

* `partInfo_encode_iff`: which strings are read back
* `readyPartitions_iff`: when all strings of an accepted array are read back
-/

namespace CliInstaller

open Splitting

/-- A JSON value. -/
inductive Json where
  | null
  | bool (b : Bool)
  | number (n : Int)
  | string (s : Str)
  | array (values : List Json)
  | object (members : List (Str × Json))

namespace Json

/-- `value[key]`, the first member of that name. -/
def member (value : Json) (key : Str) : Option Json :=
  match value with
  | object members => members.lookup key
  | _ => none

/-- `value[key].GetString()` where `value[key].IsString()`: up to the first NUL. -/
def getString (value : Json) (key : Str) : Option Str :=
  match value.member key with
  | some (string s) => some (s.takeWhile fun c => c ≠ '\x00')
  | _ => none

/-- No string of the object contains a tab. -/
def TabFree : Json → Prop
  | object members => ∀ key s, (key, string s) ∈ members → '\t' ∉ s
  | _ => True

end Json

/-- Why an entry is not accepted; the texts are those printed. -/
inductive Rejection where
  /-- an assertion on the type of a value fails -/
  | assertion
  /-- the function prints the text and returns `false` -/
  | invalid (text : Str)
  deriving DecidableEq, Repr

/-- The fields of an entry, in the order they are encoded. -/
structure ReadyPartition where
  name : Str
  mountpoint : Str
  size : Str
  fs : Str
  type : Str
  deriving DecidableEq, Repr

def validTypes : List Str := [lit "root", lit "boot", lit "additional"]

/-- A member that is asserted to be a string. -/
def assertString (partitionMap : Json) (key : Str) : Except Rejection Str :=
  match partitionMap.getString key with
  | some s => .ok s
  | none => .error .assertion

/-- The fields of an accepted entry. -/
def readyFields (rootFstype : Str) (partitionMap : Json) : Except Rejection ReadyPartition := do
  let name ← assertString partitionMap (lit "name")
  let mountpoint ← assertString partitionMap (lit "mountpoint")
  let size ← assertString partitionMap (lit "size")
  let partType ← assertString partitionMap (lit "type")
  if !validTypes.contains partType then
    throw <| .invalid <| lit "partition type '" ++ partType ++
      lit "' is invalid! Valid types: [\"root\", \"boot\", \"additional\"].\n"
  let hasFsName := (partitionMap.member (lit "fs_name")).isSome
  if !hasFsName && (partType ≠ lit "root" || (rootFstype.isEmpty && partType = lit "root")) then
    throw <| .invalid <|
      lit "required field 'fs_name' is missing for partition type '" ++ partType ++ lit "'!\n"
  let partFsName ←
    if hasFsName then assertString partitionMap (lit "fs_name") else pure rootFstype
  return ⟨name, mountpoint, size, partFsName, partType⟩

/-- The string of an entry: `"{}\t{}\t{}\t{}\t{}"`. -/
def ReadyPartition.encode (part : ReadyPartition) : Str :=
  part.name ++ ['\t'] ++ part.mountpoint ++ ['\t'] ++ part.size ++ ['\t'] ++ part.fs ++ ['\t'] ++
    part.type

/-- The body of the loop over the partitions array. -/
def parsePartition (rootFstype : Str) (partitionMap : Json) : Except Rejection Str := do
  let part ← readyFields rootFstype partitionMap
  return part.encode

/-- The partitions array in `parse_config`. -/
def parsePartitions (rootFstype : Str) (partitions : List Json) : Except Rejection (List Str) :=
  partitions.mapM (parsePartition rootFstype)

/-- The fields that `make_partitions_prepared` reads from a string, indexed unchecked. -/
def partInfo (readyPart : Str) : Except Fault ReadyPartition :=
  match makeMultiline readyPart false '\t' with
  | name :: mountpoint :: size :: fs :: type :: _ => .ok ⟨name, mountpoint, size, fs, type⟩
  | _ => .error .indexPastEnd

/-- The strings that the loop of `make_partitions_prepared` reads. -/
def partInfos (readyParts : List Str) : Except Fault (List ReadyPartition) :=
  readyParts.mapM partInfo

/-! ## One string -/

/-- The five fields. -/
def ReadyPartition.fields (part : ReadyPartition) : List Str :=
  [part.name, part.mountpoint, part.size, part.fs, part.type]

theorem ReadyPartition.encode_eq (part : ReadyPartition) :
    part.encode = ['\t'].intercalate part.fields := by
  simp [encode, fields, List.intercalate_cons_cons]

/-- The fields read are non-empty and without a tab. -/
theorem partInfo_fields {readyPart : Str} {part : ReadyPartition}
    (h : partInfo readyPart = .ok part) : ∀ field ∈ part.fields, field ≠ [] ∧ '\t' ∉ field := by
  have hpieces : ∀ field ∈ makeMultiline readyPart false '\t', field ≠ [] ∧ '\t' ∉ field := by
    intro field hfield
    rw [makeMultiline, if_neg Bool.false_ne_true, makeSplitView_eq, mem_pieces] at hfield
    exact ⟨hfield.2, not_mem_of_mem_splitOn hfield.1⟩
  rw [partInfo] at h
  split at h
  next name mountpoint size fs type rest heq =>
    obtain rfl := Except.ok.inj h
    intro field hfield
    refine hpieces field (heq ▸ ?_)
    simp only [ReadyPartition.fields, List.mem_cons, List.not_mem_nil, or_false] at hfield
    simp only [List.mem_cons]
    tauto
  next => simp at h

/-- **The fields are read back** iff none of them is empty or contains a tab. -/
theorem partInfo_encode_iff (part : ReadyPartition) :
    partInfo part.encode = .ok part ↔ ∀ field ∈ part.fields, field ≠ [] ∧ '\t' ∉ field := by
  refine ⟨partInfo_fields, fun h => ?_⟩
  have hpieces : makeMultiline part.encode false '\t' = part.fields := by
    rw [makeMultiline, if_neg Bool.false_ne_true, makeSplitView_eq, part.encode_eq,
      pieces_intercalate fun field hfield => (h field hfield).2]
    exact List.filter_eq_self.mpr fun field hfield => decide_eq_true (h field hfield).1
  rw [partInfo, hpieces]
  rfl

/-! ## One entry -/

theorem assertString_eq_ok {partitionMap : Json} {key s : Str} :
    assertString partitionMap key = .ok s ↔ partitionMap.getString key = some s := by
  rw [assertString]
  cases partitionMap.getString key <;> simp

/-- `part_fs_name`: the file system of the entry, or that of the settings. -/
def fsName (rootFstype : Str) (partitionMap : Json) : Str :=
  (partitionMap.getString (lit "fs_name")).getD rootFstype

/-- What an accepted entry looks like. -/
structure Accepted (rootFstype : Str) (partitionMap : Json) (part : ReadyPartition) : Prop where
  name : partitionMap.getString (lit "name") = some part.name
  mountpoint : partitionMap.getString (lit "mountpoint") = some part.mountpoint
  size : partitionMap.getString (lit "size") = some part.size
  type : partitionMap.getString (lit "type") = some part.type
  type_valid : part.type ∈ validTypes
  fs : part.fs = fsName rootFstype partitionMap

theorem not_throw_bind_eq_ok {α β : Type} {e : Rejection} {f : α → Except Rejection β} {b : β} :
    ¬ (throw e : Except Rejection α) >>= f = .ok b := by
  simp [bind, Except.bind, throw, throwThe, MonadExceptOf.throw]

/-- The fields of an accepted entry are its strings. -/
theorem accepted_of_readyFields {rootFstype : Str} {partitionMap : Json} {part : ReadyPartition}
    (h : readyFields rootFstype partitionMap = .ok part) :
    Accepted rootFstype partitionMap part := by
  simp only [readyFields, bind_eq_ok] at h
  obtain ⟨name, hname, mountpoint, hmountpoint, size, hsize, type, htype, h⟩ := h
  rw [assertString_eq_ok] at hname hmountpoint hsize htype
  split at h
  next => exact absurd h not_throw_bind_eq_ok
  next hvalid =>
    have hvalid : type ∈ validTypes := by simpa using hvalid
    split at h
    next => split at h <;> exact absurd h not_throw_bind_eq_ok
    next =>
      split at h
      next =>
        obtain ⟨fs, hfs, hpart⟩ := bind_eq_ok.mp h
        obtain rfl := Except.ok.inj hpart
        rw [assertString_eq_ok] at hfs
        exact ⟨hname, hmountpoint, hsize, htype, hvalid, by simp [fsName, hfs]⟩
      next hgiven =>
        obtain rfl := Except.ok.inj h
        have hnone : partitionMap.getString (lit "fs_name") = none := by
          rw [Json.getString, Option.not_isSome_iff_eq_none.mp hgiven]
        exact ⟨hname, hmountpoint, hsize, htype, hvalid, by simp [fsName, hnone]⟩

/-- The strings of an entry without tabs have none. -/
theorem Json.TabFree.getString {value : Json} (h : value.TabFree) {key s : Str}
    (hs : value.getString key = some s) : '\t' ∉ s := by
  rw [Json.getString] at hs
  split at hs
  next t hmember =>
    obtain rfl := Option.some.inj hs
    cases value with
    | object members =>
      have hmem : (key, Json.string t) ∈ members := by
        obtain ⟨before, after, rfl, -⟩ := List.lookup_eq_some_iff.mp hmember
        exact List.mem_append_right _ List.mem_cons_self
      intro htab
      exact h key t hmem (List.takeWhile_subset _ htab)
    | _ => simp [Json.member] at hmember
  next => simp at hs

/-- Every field that is encoded is non-empty, and so is the file system of the settings where it
is used, without a tab too. -/
structure EveryField (rootFstype : Str) (partitionMap : Json) : Prop where
  name : partitionMap.getString (lit "name") ≠ some []
  mountpoint : partitionMap.getString (lit "mountpoint") ≠ some []
  size : partitionMap.getString (lit "size") ≠ some []
  fs : fsName rootFstype partitionMap ≠ []
  fs_tab : '\t' ∉ fsName rootFstype partitionMap

theorem validTypes_field {type : Str} (h : type ∈ validTypes) : type ≠ [] ∧ '\t' ∉ type := by
  revert type
  decide +kernel

/-- The fields of an accepted entry without tabs can be read back iff none is empty. -/
theorem fields_iff_everyField {rootFstype : Str} {partitionMap : Json} {part : ReadyPartition}
    (h : Accepted rootFstype partitionMap part) (htab : partitionMap.TabFree) :
    (∀ field ∈ part.fields, field ≠ [] ∧ '\t' ∉ field) ↔ EveryField rootFstype partitionMap := by
  have hname := htab.getString h.name
  have hmountpoint := htab.getString h.mountpoint
  have hsize := htab.getString h.size
  have htype := validTypes_field h.type_valid
  simp only [ReadyPartition.fields, List.forall_mem_cons, List.not_mem_nil, h.fs]
  constructor
  · rintro ⟨⟨hn, -⟩, ⟨hm, -⟩, ⟨hs, -⟩, ⟨hf, hft⟩, -⟩
    exact ⟨by simpa [h.name] using hn, by simpa [h.mountpoint] using hm,
      by simpa [h.size] using hs, hf, hft⟩
  · rintro ⟨hn, hm, hs, hf, hft⟩
    rw [h.name] at hn
    rw [h.mountpoint] at hm
    rw [h.size] at hs
    exact ⟨⟨by simpa using hn, hname⟩, ⟨by simpa using hm, hmountpoint⟩, ⟨by simpa using hs, hsize⟩,
      ⟨hf, hft⟩, htype, by simp⟩

/-! ## The array -/

/-- An accepted array is the array of its entries' fields, encoded one by one. -/
theorem parsePartitions_eq_ok {rootFstype : Str} {partitions : List Json} {readyParts : List Str} :
    parsePartitions rootFstype partitions = .ok readyParts ↔
      ∃ parts, partitions.mapM (readyFields rootFstype) = .ok parts ∧
        readyParts = parts.map ReadyPartition.encode := by
  have hone : ∀ partitionMap readyPart, parsePartition rootFstype partitionMap = .ok readyPart ↔
      ∃ part, readyFields rootFstype partitionMap = .ok part ∧ readyPart = part.encode := by
    intro partitionMap readyPart
    rw [parsePartition, bind_eq_ok]
    simp only [pure, Except.pure, Except.ok.injEq, eq_comm]
  rw [parsePartitions]
  induction partitions generalizing readyParts with
  | nil => simp [pure, Except.pure, eq_comm]
  | cons partitionMap partitions ih =>
    simp only [mapM_eq_ok, List.forall₂_cons_left_iff, hone] at ih ⊢
    constructor
    · rintro ⟨_, rest, ⟨part, hpart, rfl⟩, hrest, rfl⟩
      obtain ⟨parts, hparts, rfl⟩ := ih.mp hrest
      exact ⟨part :: parts, ⟨part, parts, hpart, hparts, rfl⟩, rfl⟩
    · rintro ⟨_, ⟨part, parts, hpart, hparts, rfl⟩, rfl⟩
      exact ⟨part.encode, _, ⟨part, hpart, rfl⟩, ih.mpr ⟨parts, hparts, rfl⟩, rfl⟩

theorem partInfos_encode_iff {parts : List ReadyPartition} :
    partInfos (parts.map ReadyPartition.encode) = .ok parts ↔
      ∀ part ∈ parts, ∀ field ∈ part.fields, field ≠ [] ∧ '\t' ∉ field := by
  rw [partInfos, mapM_eq_ok, List.forall₂_map_left_iff, List.forall₂_same]
  simp only [partInfo_encode_iff]

/-- **The strings are read back as the entries** that were encoded. -/
def RoundTrips (rootFstype : Str) (partitions : List Json) (readyParts : List Str) : Prop :=
  ∃ parts, partitions.mapM (readyFields rootFstype) = .ok parts ∧ partInfos readyParts = .ok parts

/-- **The strings of an accepted array are read back** iff no entry has an empty field. -/
theorem readyPartitions_iff {rootFstype : Str} {partitions : List Json} {readyParts : List Str}
    (haccepted : parsePartitions rootFstype partitions = .ok readyParts)
    (htab : ∀ partitionMap ∈ partitions, partitionMap.TabFree) :
    RoundTrips rootFstype partitions readyParts ↔
      ∀ partitionMap ∈ partitions, EveryField rootFstype partitionMap := by
  obtain ⟨parts, hparts, rfl⟩ := parsePartitions_eq_ok.mp haccepted
  have hround : RoundTrips rootFstype partitions (parts.map ReadyPartition.encode) ↔
      ∀ part ∈ parts, ∀ field ∈ part.fields, field ≠ [] ∧ '\t' ∉ field := by
    rw [RoundTrips, hparts, ← partInfos_encode_iff]
    simp
  rw [hround]
  clear haccepted hround
  rw [mapM_eq_ok] at hparts
  induction hparts with
  | nil => simp
  | cons hpart _ ih =>
    rw [List.forall_mem_cons] at htab
    simp only [List.forall_mem_cons, ih htab.2,
      fields_iff_everyField (accepted_of_readyFields hpart) htab.1]

/-- A root partition, and a partition at `/home` whose size is left out. -/
def homeWithSize (size : Str) : List Json :=
  [.object [(lit "name", .string (lit "/dev/nvme0n1p2")), (lit "mountpoint", .string (lit "/")),
    (lit "size", .string (lit "50G")), (lit "type", .string (lit "root"))],
  .object [(lit "name", .string (lit "/dev/nvme0n1p3")), (lit "mountpoint", .string (lit "/home")),
    (lit "size", .string size), (lit "fs_name", .string (lit "ext4")),
    (lit "type", .string (lit "additional"))]]

theorem homeWithSize_tabFree {size : Str} (h : '\t' ∉ size) :
    ∀ partitionMap ∈ homeWithSize size, partitionMap.TabFree := by
  rw [homeWithSize, List.forall_mem_cons, List.forall_mem_singleton]
  simp only [Json.TabFree, List.mem_cons, Prod.mk.injEq, Json.string.injEq, List.not_mem_nil,
    or_false]
  constructor
  · rintro key s (⟨-, rfl⟩ | ⟨-, rfl⟩ | ⟨-, rfl⟩ | ⟨-, rfl⟩) <;> decide +kernel
  · rintro key s (⟨-, rfl⟩ | ⟨-, rfl⟩ | ⟨-, rfl⟩ | ⟨-, rfl⟩ | ⟨-, rfl⟩)
    case inr.inr.inl => exact h
    all_goals decide +kernel

theorem readyPartitions_iff_sizes :
    RoundTrips (lit "btrfs") (homeWithSize (lit "20G"))
        [lit "/dev/nvme0n1p2\t/\t50G\tbtrfs\troot",
          lit "/dev/nvme0n1p3\t/home\t20G\text4\tadditional"] ↔
      ∀ partitionMap ∈ homeWithSize (lit "20G"), EveryField (lit "btrfs") partitionMap :=
  readyPartitions_iff (by decide +kernel) (homeWithSize_tabFree (by decide +kernel))

/-- An empty size is accepted, and the fifth field is read past the end. -/
theorem readyPartitions_emptySize :
    ∃ readyParts, parsePartitions (lit "btrfs") (homeWithSize []) = .ok readyParts ∧
      (∀ partitionMap ∈ homeWithSize [], partitionMap.TabFree) ∧
      partInfos readyParts = .error .indexPastEnd ∧
      ¬ RoundTrips (lit "btrfs") (homeWithSize []) readyParts := by
  have hfault : partInfos [lit "/dev/nvme0n1p2\t/\t50G\tbtrfs\troot",
      lit "/dev/nvme0n1p3\t/home\t\text4\tadditional"] = .error .indexPastEnd := by
    decide +kernel
  refine ⟨_, by decide +kernel, homeWithSize_tabFree (by simp), hfault, ?_⟩
  rintro ⟨parts, -, hparts⟩
  simp [hfault] at hparts

end CliInstaller
