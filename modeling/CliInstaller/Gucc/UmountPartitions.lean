import CliInstaller.General.Nesting
import CliInstaller.General.Sorting
import CliInstaller.Gucc.Mtab

/-!
# `gucc::umount`: unmounting everything below a directory

The mountpoints that start with the root are unmounted in increasing order, up to the first
failure. A directory comes before what is mounted below it, and then cannot be unmounted: the
function succeeds only where no mountpoint lies below another.

Source: `gucc/src/umount_partitions.cpp`.

## Main definitions

* `umountPartitions`: the function, over any sort and any way to run commands
* `StrictlyBelow`: one path lies strictly below another
* `MountTable`: commands act on a table of mountpoints

## Main results

* `umountPartitions_eq`: the run of the commands in terms of the table
* `umountPartitions_iff`: when everything is unmounted
-/

namespace CliInstaller

open Sorting Nesting

/-- The command that unmounts a mountpoint. -/
def umountCmd (mountpoint : Str) : Str :=
  lit "umount -v " ++ mountpoint ++ lit " &>>/tmp/cachyos-install.log"

/-- The command that exports a zpool. -/
def zpoolExportCmd (zfsPoolname : Str) : Str :=
  lit "zpool export " ++ zfsPoolname ++ lit " &>>/tmp/cachyos-install.log"

/-- `utils::exec_checked`: run a command on the mounted file systems. -/
abbrev ExecChecked := Str → List Str → Bool × List Str

/-- The loops: run commands up to the first failure. -/
def execAll (execChecked : ExecChecked) : List Str → List Str → Bool × List Str
  | [], table => (true, table)
  | cmd :: cmds, table =>
    match execChecked cmd table with
    | (true, table') => execAll execChecked cmds table'
    | (false, table') => (false, table')

/-- `umount_partitions`, on a file system where /etc/mtab is `mtab`. -/
def umountPartitions (S : Sorter MTabEntry) (execChecked : ExecChecked) (mtab : Option Str)
    (rootMountpoint : Str) (zfsPoolnames table : List Str) : Bool × List Str :=
  match parseMtab rootMountpoint mtab with
  | none => (false, table)
  | some entries =>
    let mtabEntries := S.byKey MTabEntry.mountpoint entries
    match execAll execChecked (mtabEntries.map fun entry => umountCmd entry.mountpoint) table with
    | (false, table) => (false, table)
    | (true, table) => execAll execChecked (zfsPoolnames.map zpoolExportCmd) table

/-! ## Mountpoints as a tree -/

/-- `x` is a path below the directory `m`, and not `m` itself. -/
def StrictlyBelow (x m : Str) : Prop :=
  let dir := if m.getLast? = some '/' then m else m ++ ['/']
  dir <+: x ∧ x ≠ dir

instance : DecidableRel StrictlyBelow := fun x m => by unfold StrictlyBelow; infer_instance

/-- `x` is the directory `root` or lies below it. -/
def Under (root x : Str) : Prop := x = root ∨ StrictlyBelow x root

theorem lt_of_isPrefix_of_ne {a b : Str} (h : a <+: b) (hne : a ≠ b) : a < b := by
  obtain ⟨rest, rfl⟩ := h
  induction a with
  | nil =>
    obtain ⟨c, rest, rfl⟩ := List.exists_cons_of_ne_nil (l := rest) (by simpa using Ne.symm hne)
    exact List.nil_lt_cons c rest
  | cons c a ih =>
    rw [List.cons_append, List.cons_lt_cons_self]
    exact ih (by simpa using hne)

/-- A path comes after the directories it lies below. -/
theorem StrictlyBelow.lt {x m : Str} (h : StrictlyBelow x m) : m < x := by
  simp only [StrictlyBelow] at h
  split_ifs at h with hm
  · exact lt_of_isPrefix_of_ne h.1 (Ne.symm h.2)
  · have hpre : m <+: m ++ ['/'] := List.prefix_append _ _
    refine lt_of_isPrefix_of_ne (hpre.trans h.1) ?_
    rintro rfl
    exact absurd h.1.length_le (by simp)

theorem StrictlyBelow.isPrefix {x m : Str} (h : StrictlyBelow x m) : m <+: x := by
  simp only [StrictlyBelow] at h
  split_ifs at h with hm
  · exact h.1
  · exact (List.prefix_append m ['/']).trans h.1

theorem Under.isPrefix {root x : Str} (h : Under root x) : root <+: x := by
  rcases h with rfl | h
  · exact List.prefix_refl _
  · exact h.isPrefix

/-! ## Running the commands -/

/-- Commands act on the table of mountpoints: unmounting succeeds exactly when the mountpoint is
mounted and no other lies strictly below it; exporting a zpool succeeds, and mounts nothing. -/
structure MountTable (execChecked : ExecChecked) : Prop where
  umount : ∀ m table, execChecked (umountCmd m) table =
    match remove StrictlyBelow table m with
    | some table' => (true, table')
    | none => (false, table)
  zpoolExport : ∀ pool table, (execChecked (zpoolExportCmd pool) table).1 = true ∧
    (execChecked (zpoolExportCmd pool) table).2 ⊆ table

section Run

variable {execChecked : ExecChecked} (hexec : MountTable execChecked)

include hexec

/-- The loop over the entries removes them from the table. -/
theorem execAll_umount (ms table : List Str) :
    execAll execChecked (ms.map umountCmd) table = removeAll StrictlyBelow ms table := by
  induction ms generalizing table with
  | nil => rfl
  | cons m ms ih =>
    rw [List.map_cons, execAll, removeAll, hexec.umount]
    rcases remove StrictlyBelow table m with _ | table'
    · rfl
    · exact ih table'

theorem execAll_zpoolExport (pools table : List Str) :
    ∃ table' ⊆ table, execAll execChecked (pools.map zpoolExportCmd) table = (true, table') := by
  induction pools generalizing table with
  | nil => exact ⟨table, List.Subset.refl _, rfl⟩
  | cons pool pools ih =>
    obtain ⟨hok, hsub⟩ := hexec.zpoolExport pool table
    rcases hrun : execChecked (zpoolExportCmd pool) table with ⟨ok, table'⟩
    rw [hrun] at hok hsub
    obtain rfl : ok = true := hok
    obtain ⟨table'', hsub', hrun'⟩ := ih table'
    exact ⟨table'', List.Subset.trans hsub' hsub, by rw [List.map_cons, execAll, hrun]; exact hrun'⟩

end Run

/-! ## When everything is unmounted -/

/-- The entries of a table whose mountpoint starts with the root. -/
def entriesUnder (text root : Str) : List MTabEntry :=
  ((lines text).filterMap mtabEntry).filter fun entry => startsWith entry.mountpoint root

/-- The order in which the mountpoints are unmounted. -/
def umountOrder (S : Sorter MTabEntry) (text root : Str) : List Str :=
  (S.byKey MTabEntry.mountpoint (entriesUnder text root)).map MTabEntry.mountpoint

theorem umountOrder_perm (S : Sorter MTabEntry) (text root : Str) :
    (umountOrder S text root).Perm ((mounted text).filter fun m => startsWith m root) := by
  rw [mounted, List.filter_map]
  exact (S.byKey_perm _ _).map _

theorem umountOrder_ascending (S : Sorter MTabEntry) (text root : Str) :
    (umountOrder S text root).Pairwise (· ≤ ·) :=
  List.pairwise_map.mpr (S.byKey_ordered _ _)

/-- Everything was unmounted: the call succeeds, every mountpoint came after those below it, and
nothing is left under the root. -/
def UnmountsAll (S : Sorter MTabEntry) (execChecked : ExecChecked) (text root : Str)
    (pools : List Str) : Prop :=
  (umountOrder S text root).Pairwise (fun a b => ¬ StrictlyBelow b a) ∧
    ∃ table', umountPartitions S execChecked (some text) root pools (mounted text) =
        (true, table') ∧
      ∀ m ∈ table', ¬ Under root m

section Result

variable {S : Sorter MTabEntry} {execChecked : ExecChecked} {text root : Str} {pools : List Str}

/-- The run on a table that is not empty. -/
theorem umountPartitions_eq (hexec : MountTable execChecked) (hroot : root ≠ []) (htext : text ≠ []) :
    ∃ left ⊆ (removeAll StrictlyBelow (umountOrder S text root) (mounted text)).2,
      umountPartitions S execChecked (some text) root pools (mounted text) =
        ((removeAll StrictlyBelow (umountOrder S text root) (mounted text)).1, left) := by
  have hparse : parseMtab root (some text) = some (entriesUnder text root) := by
    rw [parseMtab_eq hroot htext, parseMtabContent_eq]
    rfl
  have hloop := execAll_umount hexec (umountOrder S text root) (mounted text)
  rw [umountOrder, List.map_map, Function.comp_def] at hloop
  rcases hremove : removeAll StrictlyBelow (umountOrder S text root) (mounted text) with ⟨ok, table⟩
  rw [umountOrder] at hremove
  rw [hremove] at hloop
  rw [umountPartitions, hparse]
  rcases ok with _ | _
  · exact ⟨table, List.Subset.refl _, by simp [hloop]⟩
  · obtain ⟨left, hsub, hexport⟩ := execAll_zpoolExport hexec pools table
    exact ⟨left, hsub, by simp [hloop, hexport]⟩

/-- **Everything is unmounted exactly when nothing is nested**, on a table that is not empty. -/
theorem unmountsAll_iff (hexec : MountTable execChecked) (hroot : root ≠ []) (htext : text ≠ []) :
    UnmountsAll S execChecked text root pools ↔
      ∀ m ∈ mounted text, ∀ x ∈ mounted text, root <+: m → ¬ StrictlyBelow x m := by
  have hclosed : ∀ m x : Str, startsWith m root = true → StrictlyBelow x m →
      startsWith x root = true := by
    intro m x hm hx
    rw [startsWith_iff] at hm ⊢
    exact hm.trans hx.isPrefix
  have hperm := umountOrder_perm S text root
  have hmem : ∀ m, m ∈ umountOrder S text root ↔ m ∈ mounted text ∧ root <+: m := by
    intro m
    rw [hperm.mem_iff, List.mem_filter, startsWith_iff]
  have hremoved := removeAll_iff hclosed (fun x hx => absurd hx.lt (lt_irrefl x)) hperm
  -- The order is increasing, so it is a legal one only if nothing is nested.
  have hnested : (umountOrder S text root).Pairwise (fun a b => ¬ StrictlyBelow b a) ↔
      ∀ m ∈ mounted text, ∀ x ∈ mounted text, root <+: m → ¬ StrictlyBelow x m := by
    rw [forall_not_below_of_ascending (fun x m h => h.lt) (umountOrder_ascending S text root)]
    constructor
    · intro h m hm x hx hr hbelow
      exact h m ((hmem m).mpr ⟨hm, hr⟩) x ((hmem x).mpr ⟨hx, hr.trans hbelow.isPrefix⟩) hbelow
    · intro h m hm x hx
      exact h m ((hmem m).mp hm).1 x ((hmem x).mp hx).1 ((hmem m).mp hm).2
  rw [← hnested]
  refine ⟨fun h => h.1, fun hpair => ⟨hpair, ?_⟩⟩
  obtain ⟨left, hsub, hrun⟩ := @umountPartitions_eq S _ _ _ pools hexec hroot htext
  have hok := hremoved.mpr hpair
  refine ⟨left, hok ▸ hrun, ?_⟩
  intro m hm hunder
  have hleft := (removeAll_table hperm hok).subset (hsub hm)
  simp only [List.mem_filter, startsWith_iff.mpr hunder.isPrefix, Bool.not_true] at hleft
  exact absurd hleft.2 (by simp)

/-- **When `umount_partitions` unmounts everything**: the root and the table are not empty, and no
mountpoint that starts with the root has another one strictly below it. -/
theorem umountPartitions_iff (hexec : MountTable execChecked) :
    UnmountsAll S execChecked text root pools ↔
      (root ≠ [] ∧ text ≠ []) ∧
        ∀ m ∈ mounted text, ∀ x ∈ mounted text, root <+: m → ¬ StrictlyBelow x m := by
  by_cases hempty : root = [] ∨ text = []
  · have hnot : ¬ UnmountsAll S execChecked text root pools := by
      rintro ⟨-, table', hrun, -⟩
      rw [umountPartitions, parseMtab_eq_none hempty] at hrun
      exact absurd (congrArg Prod.fst hrun) (by simp)
    apply iff_of_false hnot
    intro h
    exact hempty.elim h.1.1 h.1.2
  · push Not at hempty
    rw [unmountsAll_iff hexec hempty.1 hempty.2, and_iff_right hempty]

end Result

/-! ## A directory with something mounted below it -/

/-- Commands on a table of mountpoints, told apart by their first letter. -/
def tableExec : ExecChecked := fun cmd table =>
  match table.find? fun m => umountCmd m = cmd with
  | some m =>
    match remove StrictlyBelow table m with
    | some table' => (true, table')
    | none => (false, table)
  | none => (cmd.head? = some 'z', table)

theorem mountTable_tableExec : MountTable tableExec where
  umount m table := by
    have hinj : ∀ m', (umountCmd m' = umountCmd m) = (m' = m) := by simp [umountCmd]
    have hother : (umountCmd m).head? = some 'u' := by simp [umountCmd, lit_eq]
    simp only [tableExec, hinj]
    by_cases hm : m ∈ table
    · obtain ⟨m', hfind⟩ := Option.isSome_iff_exists.mp
        (List.find?_isSome (p := fun m' => decide (m' = m)) |>.mpr ⟨m, hm, by simp⟩)
      obtain rfl : m' = m := by simpa using List.find?_some hfind
      rw [hfind]
    · have hfind : table.find? (fun m' => decide (m' = m)) = none := by
        rw [List.find?_eq_none]
        rintro x hx h
        exact hm (of_decide_eq_true h ▸ hx)
      rw [hfind, remove, if_neg fun h => hm h.1, hother]
      rfl
  zpoolExport pool table := by
    have hexport : (zpoolExportCmd pool).head? = some 'z' := by simp [zpoolExportCmd, lit_eq]
    have hnone : table.find? (fun m => decide (umountCmd m = zpoolExportCmd pool)) = none := by
      simp [umountCmd, zpoolExportCmd, lit_eq]
    simp only [tableExec, hnone, hexport]
    exact ⟨rfl, List.Subset.refl _⟩

/-- The table of a system with a boot partition. -/
def sampleMtab : Str :=
  lit "/dev/sda2 /mnt ext4 rw 0 0\n/dev/sda1 /mnt/boot vfat rw 0 0\n"

/-- Unmounting starts with the directory that holds the boot partition, and fails. -/
theorem umountPartitions_nested :
    (mounted sampleMtab).Nodup ∧ MountTable tableExec ∧
      umountPartitions .stable tableExec (some sampleMtab) (lit "/mnt") [] (mounted sampleMtab) =
        (false, [lit "/mnt", lit "/mnt/boot"]) ∧
      ¬ UnmountsAll .stable tableExec sampleMtab (lit "/mnt") [] := by
  have hrun : umountPartitions .stable tableExec (some sampleMtab) (lit "/mnt") []
      (mounted sampleMtab) = (false, [lit "/mnt", lit "/mnt/boot"]) := by
    decide +kernel
  refine ⟨by decide +kernel, mountTable_tableExec, hrun, ?_⟩
  rintro ⟨-, table', hrun', -⟩
  rw [hrun] at hrun'
  simp at hrun'

/-- Two directories beside each other are unmounted. -/
theorem umountPartitions_siblings :
    UnmountsAll .stable tableExec
      (lit "/dev/sda1 /mnt/boot vfat rw 0 0\ntmpfs / tmpfs rw 0 0\n/dev/sda2 /mnt/a ext4 rw 0 0\n")
      (lit "/mnt") [lit "zpcachyos"] :=
  (umountPartitions_iff mountTable_tableExec).mpr (by decide +kernel)

end CliInstaller
