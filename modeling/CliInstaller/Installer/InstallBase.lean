import CliInstaller.General.Precedence
import CliInstaller.Gucc.InitcpioLines

/-!
# `install_base`: the hooks of the initial ramdisk

After the packages are installed, hooks for the root's file system, for RAID, and for LVM and LUKS
are inserted into mkinitcpio.conf, each before a hook that needs what it sets up. The hook for zfs
is inserted first, so what is inserted later before "filesystems" comes after it.

Source: `install_base` in `src/utils.cpp`.

## Main definitions

* `installBaseCalls`, `installBaseHooks`: the calls on the object, and the state after them
* `Bootable`: the order of the hooks that boots
* `HooksFit`: the condition on the flags and the hooks

## Main results

* `hooks_run_installBaseCalls`: the hooks after the calls
* `installBase_bootable_iff`: when the order boots
-/

namespace CliInstaller

open Splitting Machines Precedence

/-- The file system types with handling of their own, and fsck removed. -/
def removesFsck (filesystemType : Str) : Bool :=
  filesystemType = lit "btrfs" || filesystemType = lit "zfs"

/-- mkinitcpio handling for specific filesystems -/
def filesystemCalls (filesystemType : Str) : List Call :=
  if filesystemType = lit "btrfs" then
    [.removeHook (lit "fsck"), .appendModule (lit "btrfs")]
  else if filesystemType = lit "zfs" then
    [.removeHook (lit "fsck"), .insertHook (lit "filesystems") (lit "zfs"),
      .appendFile (lit "\"/usr/lib/libgcc_s.so.1\"")]
  else []

/-- The hook and the modules for RAID. -/
def raidCalls (raidUsed : Bool) : List Call :=
  if raidUsed then
    [.insertHook (lit "block") (lit "mdadm_udev"), .appendModule (lit "raid0"),
      .appendModule (lit "raid1")]
  else []

/-- The hooks for LVM and LUKS. -/
def lvmLuksCalls (lvm luks : Int) : List Call :=
  if lvm = 1 ∧ luks = 0 then
    [.insertHook (lit "filesystems") (lit "lvm2")]
  else if lvm = 0 ∧ luks = 1 then
    [.insertHooks (lit "keyboard") [lit "consolefont", lit "keymap"],
      .insertHook (lit "filesystems") (lit "encrypt")]
  else if lvm = 1 ∧ luks = 1 then
    [.insertHooks (lit "keyboard") [lit "consolefont", lit "keymap"],
      .insertHooks (lit "filesystems") [lit "encrypt", lit "lvm2"]]
  else []

/-- The calls of `install_base` after the packages are installed. -/
def installBaseCalls (filesystemType : Str) (raidUsed : Bool) (lvm luks : Int) : List Call :=
  filesystemCalls filesystemType ++ raidCalls raidUsed ++ lvmLuksCalls lvm luks

/-- The object and the files when `install_base` has done with the hooks: the calls, and the file
flushed once more. -/
def installBaseHooks (filesystemType : Str) (raidUsed : Bool) (lvm luks : Int) (s : Session) :
    Session :=
  let s := fileMachine.run (installBaseCalls filesystemType raidUsed lvm luks) s
  let (parsed, obj) := s.obj.parseFile s.fs
  if parsed then ⟨(obj.write s.fs).2, obj⟩ else ⟨s.fs, obj⟩

/-! ## The order that boots -/

/-- The hooks that set up what the root lies on, as they are requested. -/
def rootHooks (raidUsed : Bool) (lvm luks : Int) : List Str :=
  (if raidUsed then [lit "mdadm_udev"] else []) ++
  (if luks = 1 then [lit "encrypt"] else []) ++
  if lvm = 1 then [lit "lvm2"] else []

/-- All the hooks that are requested. -/
def requestedHooks (filesystemType : Str) (raidUsed : Bool) (lvm luks : Int) : List Str :=
  rootHooks raidUsed lvm luks ++
  (if luks = 1 then [lit "consolefont", lit "keymap"] else []) ++
  if filesystemType = lit "zfs" then [lit "zfs"] else []

/-- The original hooks that are to remain. -/
def keptHooks (filesystemType : Str) (original : List Str) : List Str :=
  if removesFsck filesystemType then original.filter (· ≠ lit "fsck") else original

/-- The original hooks are there in their order, fsck apart for btrfs and zfs; every hook that is
requested is there once; "encrypt" precedes "lvm2"; and the hooks that set up what the root lies on
precede "zfs" and "filesystems". -/
structure Bootable (filesystemType : Str) (raidUsed : Bool) (lvm luks : Int)
    (original hooks : List Str) : Prop where
  kept : (keptHooks filesystemType original).Sublist hooks
  fsck : removesFsck filesystemType → lit "fsck" ∉ hooks
  once : ∀ hook ∈ requestedHooks filesystemType raidUsed lvm luks, hooks.count hook = 1
  encrypt_lvm2 : lvm = 1 → luks = 1 → Precedes (lit "encrypt") (lit "lvm2") hooks
  filesystems : ∀ hook ∈ rootHooks raidUsed lvm luks, Precedes hook (lit "filesystems") hooks
  zfs : filesystemType = lit "zfs" →
    ∀ hook ∈ rootHooks raidUsed lvm luks, Precedes hook (lit "zfs") hooks

/-- The condition: a zfs root goes without LVM and LUKS; no second "fsck" is left when it is removed;
and "consolefont" and "keymap" are not there twice when they are requested. -/
structure HooksFit (filesystemType : Str) (lvm luks : Int) (original : List Str) : Prop where
  zfs : filesystemType = lit "zfs" → lvm ≠ 1 ∧ luks ≠ 1
  fsck : removesFsck filesystemType → original.count (lit "fsck") ≤ 1
  console : luks = 1 → original.count (lit "consolefont") ≤ 1 ∧ original.count (lit "keymap") ≤ 1

/-! ## Insertion and precedence -/

section Insertion

variable {needle : Str} {ws l : List Str} {a b w : Str}

theorem insertBefore_nil (needle : Str) (l : List Str) : insertBefore needle [] l = l := by
  induction l with
  | nil => rfl
  | cons v l ih =>
    rw [insertBefore]
    split_ifs
    · rfl
    · rw [ih]

theorem sublist_insertBefore : l.Sublist (insertBefore needle ws l) := by
  induction l with
  | nil => exact List.nil_sublist _
  | cons v l ih =>
    rw [insertBefore]
    split_ifs
    · exact List.sublist_append_right _ _
    · exact ih.cons_cons v

/-- Other elements keep their precedence. -/
theorem precedes_insertBefore (h : Precedes a b l) (hb : b ∉ ws) :
    Precedes a b (insertBefore needle ws l) := by
  induction l with
  | nil => exact precedes_of_not_mem hb
  | cons v l ih =>
    rw [insertBefore]
    split_ifs
    · exact precedes_append.mpr ⟨precedes_of_not_mem hb, .inr h⟩
    · obtain ⟨hv, h⟩ := precedes_cons.mp h
      exact precedes_cons.mpr ⟨hv, h.imp_right ih⟩

/-- What is inserted precedes the needle. -/
theorem precedes_needle (hw : w ∈ ws) (hneedle : needle ∉ ws) :
    Precedes w needle (insertBefore needle ws l) := by
  induction l with
  | nil => exact precedes_of_not_mem hneedle
  | cons v l ih =>
    rw [insertBefore]
    split_ifs with hv
    · exact precedes_append.mpr ⟨precedes_of_not_mem hneedle, .inl hw⟩
    · exact precedes_cons.mpr ⟨hv, .inr ih⟩

/-- What precedes the needle precedes what is inserted before it. -/
theorem precedes_inserted (h : Precedes a needle l) (hneedle : needle ∈ l) (hw : w ∉ l) :
    Precedes a w (insertBefore needle ws l) := by
  induction l with
  | nil => cases hneedle
  | cons v l ih =>
    obtain ⟨hv, h⟩ := precedes_cons.mp h
    rw [List.mem_cons, not_or] at hw
    rw [insertBefore, if_neg hv]
    exact precedes_cons.mpr ⟨Ne.symm hw.1, h.imp_right fun h =>
      ih h ((List.mem_cons.mp hneedle).resolve_left (Ne.symm hv)) hw.2⟩

/-- What is inserted together keeps its precedence. -/
theorem precedes_inside (h : Precedes a b ws) (hb : b ∉ l) :
    Precedes a b (insertBefore needle ws l) := by
  induction l with
  | nil => exact h
  | cons v l ih =>
    rw [insertBefore]
    split_ifs
    · exact precedes_append.mpr ⟨h, .inr (precedes_of_not_mem hb)⟩
    · rw [List.mem_cons, not_or] at hb
      exact precedes_cons.mpr ⟨Ne.symm hb.1, .inr (ih hb.2)⟩

theorem mem_insertBefore : w ∈ insertBefore needle ws l ↔ w ∈ ws ∨ w ∈ l := by
  rw [(insertBefore_perm needle ws l).mem_iff, List.mem_append]

end Insertion

/-! ## The hooks after the calls -/

/-- The hooks after the calls for the file system. -/
def filesystemHooks (filesystemType : Str) (original : List Str) : List Str :=
  insertBefore (lit "filesystems") (if filesystemType = lit "zfs" then [lit "zfs"] else [])
    (if removesFsck filesystemType then original.erase (lit "fsck") else original)

/-- The hooks after the calls for RAID. -/
def raidHooks (raidUsed : Bool) (hooks : List Str) : List Str :=
  insertBefore (lit "block") (if raidUsed then [lit "mdadm_udev"] else []) hooks

/-- The hooks for the console that are not there yet. -/
def consoleHooks (luks : Int) (hooks : List Str) : List Str :=
  if luks = 1 then [lit "consolefont", lit "keymap"].filter (!hooks.contains ·) else []

/-- The hooks for LUKS and LVM. -/
def deviceHooks (lvm luks : Int) : List Str :=
  (if luks = 1 then [lit "encrypt"] else []) ++ if lvm = 1 then [lit "lvm2"] else []

/-- The hooks after the calls for LVM and LUKS. -/
def lvmLuksHooks (lvm luks : Int) (hooks : List Str) : List Str :=
  insertBefore (lit "filesystems") (deviceHooks lvm luks)
    (insertBefore (lit "keyboard") (consoleHooks luks hooks) hooks)

section Calls

variable {L : Lists} {w needle : Str} {ws : List Str} {filesystemType : Str} {raidUsed : Bool}
  {lvm luks : Int}

theorem hooks_of_ne {call : Call} (h : call.field ≠ .hooks) :
    (listsMachine.step call L).2 .hooks = L .hooks :=
  listsMachine_frame (Ne.symm h) L

theorem hooks_of_field {call : Call} (h : call.field = .hooks) :
    (listsMachine.step call L).2 .hooks = (call.change (L .hooks)).getD (L .hooks) := by
  simp only [listsMachine, h]
  cases call.change (L .hooks) with
  | none => rfl
  | some l => simp

theorem addNew_getD (l : List Str) :
    (Call.addNew ws (insertBefore needle) l).getD l =
      insertBefore needle (ws.filter (· ∉ l)) l := by
  rw [Call.addNew]
  split_ifs with hsub
  · have hnone : ws.filter (· ∉ l) = [] := by
      rw [List.filter_eq_nil_iff]
      intro w hw
      simpa using hsub hw
    rw [hnone, insertBefore_nil, Option.getD_none]
  · rfl

theorem hooks_removeHook :
    (listsMachine.step (.removeHook w) L).2 .hooks = (L .hooks).erase w := by
  rw [hooks_of_field rfl]
  by_cases hw : w ∈ L .hooks
  · simp [Call.change, hw]
  · simp [Call.change, hw, List.erase_of_not_mem hw]

theorem hooks_insertHook (hw : w ∉ L .hooks) :
    (listsMachine.step (.insertHook needle w) L).2 .hooks =
      insertBefore needle [w] (L .hooks) := by
  rw [hooks_of_field rfl, Call.change, addNew_getD]
  simp [hw]

theorem hooks_insertHooks :
    (listsMachine.step (.insertHooks needle ws) L).2 .hooks =
      insertBefore needle (ws.filter (· ∉ L .hooks)) (L .hooks) := by
  rw [hooks_of_field rfl, Call.change, addNew_getD]

theorem hooks_filesystemCalls (hzfs : lit "zfs" ∉ L .hooks) :
    listsMachine.run (filesystemCalls filesystemType) L .hooks =
      filesystemHooks filesystemType (L .hooks) := by
  have hmem : lit "zfs" ∉ (L .hooks).erase (lit "fsck") := fun h => hzfs (List.mem_of_mem_erase h)
  by_cases hbtrfs : filesystemType = lit "btrfs"
  · have hother : filesystemType ≠ lit "zfs" := by rw [hbtrfs]; simp [lit_eq]
    simp only [filesystemCalls, filesystemHooks, removesFsck, hbtrfs, if_true, Machine.run,
      decide_true, Bool.true_or, if_neg (hbtrfs ▸ hother), insertBefore_nil]
    rw [hooks_of_ne (by decide), hooks_removeHook]
  · by_cases hzfsType : filesystemType = lit "zfs"
    · have hnot : lit "zfs" ≠ lit "btrfs" := by simp [lit_eq]
      simp only [filesystemCalls, filesystemHooks, removesFsck, hzfsType, if_neg hnot, if_true,
        Machine.run, decide_true, Bool.or_true]
      rw [hooks_of_ne (by decide), hooks_insertHook (by rwa [hooks_removeHook]), hooks_removeHook]
    · simp [filesystemCalls, filesystemHooks, removesFsck, hbtrfs, hzfsType, Machine.run,
        insertBefore_nil]

theorem hooks_raidCalls (hmdadm : lit "mdadm_udev" ∉ L .hooks) :
    listsMachine.run (raidCalls raidUsed) L .hooks = raidHooks raidUsed (L .hooks) := by
  cases raidUsed with
  | false => simp [raidCalls, raidHooks, Machine.run, insertBefore_nil]
  | true =>
    simp only [raidCalls, raidHooks, if_true, Machine.run]
    rw [hooks_of_ne (by decide), hooks_of_ne (by decide), hooks_insertHook hmdadm]

/-- The hooks for the console that are new. -/
theorem consoleHooks_one (hooks : List Str) :
    consoleHooks 1 hooks = [lit "consolefont", lit "keymap"].filter (· ∉ hooks) := by
  rw [consoleHooks, if_pos rfl]
  exact List.filter_congr fun w _ => by simp

theorem hooks_lvmLuksCalls (hlvm : lvm = 0 ∨ lvm = 1) (hluks : luks = 0 ∨ luks = 1)
    (hencrypt : lit "encrypt" ∉ L .hooks) (hlvm2 : lit "lvm2" ∉ L .hooks) :
    listsMachine.run (lvmLuksCalls lvm luks) L .hooks = lvmLuksHooks lvm luks (L .hooks) := by
  have hstill : ∀ w, w ≠ lit "consolefont" → w ≠ lit "keymap" → w ∉ L .hooks →
      w ∉ insertBefore (lit "keyboard")
        ([lit "consolefont", lit "keymap"].filter (· ∉ L .hooks)) (L .hooks) := by
    intro w h₁ h₂ hw hmem
    rcases mem_insertBefore.mp hmem with hmem | hmem
    · rcases List.mem_pair.mp (List.mem_of_mem_filter hmem) with h | h
      · exact h₁ h
      · exact h₂ h
    · exact hw hmem
  have hencrypt' := hstill (lit "encrypt") (by simp [lit_eq]) (by simp [lit_eq]) hencrypt
  have hlvm2' := hstill (lit "lvm2") (by simp [lit_eq]) (by simp [lit_eq]) hlvm2
  rcases hlvm with rfl | rfl <;> rcases hluks with rfl | rfl
  · simp [lvmLuksCalls, lvmLuksHooks, consoleHooks, deviceHooks, Machine.run, insertBefore_nil]
  · change (listsMachine.step _ (listsMachine.step _ L).2).2 .hooks = _
    rw [hooks_insertHook (by rwa [hooks_insertHooks]), hooks_insertHooks, lvmLuksHooks,
      consoleHooks_one]
    rfl
  · change (listsMachine.step _ L).2 .hooks = insertBefore _ _ (insertBefore _ [] _)
    rw [hooks_insertHook hlvm2, insertBefore_nil]
    rfl
  · change (listsMachine.step _ (listsMachine.step _ L).2).2 .hooks = _
    rw [hooks_insertHooks, hooks_insertHooks, List.filter_eq_self.mpr, lvmLuksHooks,
      consoleHooks_one]
    · rfl
    · intro w hw
      rcases List.mem_pair.mp hw with rfl | rfl
      · exact decide_eq_true hencrypt'
      · exact decide_eq_true hlvm2'

/-- The original hooks without "fsck" where it is removed. -/
def hooksLeft (filesystemType : Str) (original : List Str) : List Str :=
  if removesFsck filesystemType then original.erase (lit "fsck") else original

/-- The hooks after all the calls. -/
def finalHooks (filesystemType : Str) (raidUsed : Bool) (lvm luks : Int) (original : List Str) :
    List Str :=
  lvmLuksHooks lvm luks (raidHooks raidUsed (filesystemHooks filesystemType original))

/-- The hooks that the packages leave: those that the others are inserted before, and none that is
inserted. -/
structure UsualHooks (original : List Str) : Prop where
  block : lit "block" ∈ original
  filesystems : lit "filesystems" ∈ original
  keyboard : lit "keyboard" ∈ original
  block_filesystems : Precedes (lit "block") (lit "filesystems") original
  mdadmUdev : lit "mdadm_udev" ∉ original
  encrypt : lit "encrypt" ∉ original
  lvm2 : lit "lvm2" ∉ original
  zfs : lit "zfs" ∉ original

theorem mem_of_mem_hooksLeft {original : List Str} (h : w ∈ hooksLeft filesystemType original) :
    w ∈ original := by
  rw [hooksLeft] at h
  split_ifs at h
  · exact List.mem_of_mem_erase h
  · exact h

theorem mem_filesystemHooks {original : List Str} :
    w ∈ filesystemHooks filesystemType original ↔
      (filesystemType = lit "zfs" ∧ w = lit "zfs") ∨ w ∈ hooksLeft filesystemType original := by
  rw [filesystemHooks, mem_insertBefore, hooksLeft]
  refine or_congr_left ?_
  split_ifs with h <;> simp [h]

theorem mem_raidHooks {hooks : List Str} :
    w ∈ raidHooks raidUsed hooks ↔ (raidUsed = true ∧ w = lit "mdadm_udev") ∨ w ∈ hooks := by
  rw [raidHooks, mem_insertBefore]
  refine or_congr_left ?_
  split_ifs with h <;> simp [h]

/-- **The hooks after the calls.** -/
theorem hooks_run_installBaseCalls (hlvm : lvm = 0 ∨ lvm = 1) (hluks : luks = 0 ∨ luks = 1)
    (h : UsualHooks (L .hooks)) :
    listsMachine.run (installBaseCalls filesystemType raidUsed lvm luks) L .hooks =
      finalHooks filesystemType raidUsed lvm luks (L .hooks) := by
  have hnew : ∀ w, w ∉ L .hooks → w ≠ lit "zfs" → w ∉ filesystemHooks filesystemType (L .hooks) := by
    intro w hw hzfs hmem
    rcases mem_filesystemHooks.mp hmem with ⟨-, rfl⟩ | hmem
    · exact hzfs rfl
    · exact hw (mem_of_mem_hooksLeft hmem)
  have hnew' : ∀ w, w ∉ L .hooks → w ≠ lit "zfs" → w ≠ lit "mdadm_udev" →
      w ∉ raidHooks raidUsed (filesystemHooks filesystemType (L .hooks)) := by
    intro w hw hzfs hmdadm hmem
    rcases mem_raidHooks.mp hmem with ⟨-, rfl⟩ | hmem
    · exact hmdadm rfl
    · exact hnew w hw hzfs hmem
  have hfs : listsMachine.run (filesystemCalls filesystemType) L .hooks = _ :=
    hooks_filesystemCalls h.zfs
  rw [installBaseCalls, Machine.run_append, Machine.run_append, finalHooks,
    hooks_lvmLuksCalls hlvm hluks, hooks_raidCalls, hfs]
  · rw [hfs]
    exact hnew _ h.mdadmUdev (by simp [lit_eq])
  all_goals
    rw [hooks_raidCalls (by rw [hfs]; exact hnew _ h.mdadmUdev (by simp [lit_eq])), hfs]
  · exact hnew' _ h.encrypt (by simp [lit_eq]) (by simp [lit_eq])
  · exact hnew' _ h.lvm2 (by simp [lit_eq]) (by simp [lit_eq])

end Calls

/-! ## When the order boots -/

section Bootable

variable {filesystemType : Str} {raidUsed : Bool} {lvm luks : Int} {original : List Str} {w : Str}

/-- The hook for RAID, if it is requested. -/
def mdadmHooks (raidUsed : Bool) : List Str := if raidUsed then [lit "mdadm_udev"] else []

/-- The hook for zfs, if it is requested. -/
def zfsHooks (filesystemType : Str) : List Str :=
  if filesystemType = lit "zfs" then [lit "zfs"] else []

/-- Every hook at the end is an original one or a requested one. -/
theorem finalHooks_perm :
    (finalHooks filesystemType raidUsed lvm luks original).Perm
      (deviceHooks lvm luks ++
        (consoleHooks luks (raidHooks raidUsed (filesystemHooks filesystemType original)) ++
          (mdadmHooks raidUsed ++ (zfsHooks filesystemType ++ hooksLeft filesystemType original)))) := by
  refine (insertBefore_perm _ _ _).trans (List.Perm.append_left _ ?_)
  refine (insertBefore_perm _ _ _).trans (List.Perm.append_left _ ?_)
  refine (insertBefore_perm _ _ _).trans (List.Perm.append_left _ ?_)
  exact insertBefore_perm _ _ _

theorem hooksLeft_sublist_finalHooks :
    (hooksLeft filesystemType original).Sublist
      (finalHooks filesystemType raidUsed lvm luks original) :=
  sublist_insertBefore.trans (sublist_insertBefore.trans
    (sublist_insertBefore.trans sublist_insertBefore))

theorem keptHooks_sublist_hooksLeft :
    (keptHooks filesystemType original).Sublist (hooksLeft filesystemType original) := by
  rw [keptHooks, hooksLeft]
  split_ifs
  · have hfilter : (original.erase (lit "fsck")).filter (· ≠ lit "fsck") =
        original.filter (· ≠ lit "fsck") := by
      rw [← List.erase_filter, List.erase_of_not_mem (by simp)]
    rw [← hfilter]
    exact List.filter_sublist
  · exact List.Sublist.refl _

theorem count_hooksLeft (hw : w ≠ lit "fsck") :
    (hooksLeft filesystemType original).count w = original.count w := by
  rw [hooksLeft]
  split_ifs
  · exact List.count_erase_of_ne hw
  · rfl

theorem fsck_mem_hooksLeft_iff (h : removesFsck filesystemType = true) :
    lit "fsck" ∈ hooksLeft filesystemType original ↔ ¬ original.count (lit "fsck") ≤ 1 := by
  rw [hooksLeft, if_pos h, ← List.count_pos_iff, List.count_erase_self]
  omega

theorem count_ite_singleton {c : Prop} [Decidable c] (hook : Str) :
    (if c then [hook] else []).count w = if c ∧ hook = w then 1 else 0 := by
  by_cases h : c <;> simp [h, List.count_singleton]

theorem count_finalHooks :
    (finalHooks filesystemType raidUsed lvm luks original).count w =
      (deviceHooks lvm luks).count w +
        ((consoleHooks luks (raidHooks raidUsed (filesystemHooks filesystemType original))).count w +
          ((mdadmHooks raidUsed).count w +
            ((zfsHooks filesystemType).count w + (hooksLeft filesystemType original).count w))) := by
  rw [finalHooks_perm.count_eq, List.count_append, List.count_append, List.count_append,
    List.count_append]

/-- Hooks that are not for the console: where they come from. -/
theorem count_consoleHooks {hooks : List Str} (h₁ : w ≠ lit "consolefont") (h₂ : w ≠ lit "keymap") :
    (consoleHooks luks hooks).count w = 0 := by
  rw [List.count_eq_zero, consoleHooks]
  split_ifs
  · intro hmem
    rcases List.mem_pair.mp (List.mem_of_mem_filter hmem) with h | h
    · exact h₁ h
    · exact h₂ h
  · exact List.not_mem_nil

/-- A hook that was not there, and is not for the console, comes from its own option only. -/
theorem count_finalHooks_of_new (hnew : w ∉ original) (h₁ : w ≠ lit "consolefont")
    (h₂ : w ≠ lit "keymap") :
    (finalHooks filesystemType raidUsed lvm luks original).count w =
      (deviceHooks lvm luks).count w + ((mdadmHooks raidUsed).count w +
        (zfsHooks filesystemType).count w) := by
  have hleft : (hooksLeft filesystemType original).count w = 0 :=
    List.count_eq_zero_of_not_mem fun hmem => hnew (mem_of_mem_hooksLeft hmem)
  rw [count_finalHooks, count_consoleHooks h₁ h₂, hleft, Nat.zero_add, Nat.add_zero]

/-- A hook for the console that is requested is there once if it was there once at most. -/
theorem count_consoleHooks_add {hooks : List Str} (hw : w = lit "consolefont" ∨ w = lit "keymap") :
    (consoleHooks 1 hooks).count w + hooks.count w = 1 ↔ hooks.count w ≤ 1 := by
  have hnodup : [lit "consolefont", lit "keymap"].Nodup := by simp [lit_eq]
  have hmem : w ∈ [lit "consolefont", lit "keymap"] := List.mem_pair.mpr hw
  rw [consoleHooks_one]
  by_cases hold : w ∈ hooks
  · have hzero : ([lit "consolefont", lit "keymap"].filter (· ∉ hooks)).count w = 0 := by
      rw [List.count_eq_zero]
      intro h
      simpa [hold] using (List.mem_filter.mp h).2
    have hpos := List.count_pos_iff.mpr hold
    omega
  · have hone : ([lit "consolefont", lit "keymap"].filter (· ∉ hooks)).count w = 1 := by
      rw [List.count_filter (by simpa using hold)]
      exact Nat.le_antisymm (List.nodup_iff_count.mp hnodup w) (List.one_le_count_iff.mpr hmem)
    rw [hone, List.count_eq_zero_of_not_mem hold]
    simp

/-- **How often a requested hook is there.** -/
theorem once_iff (hlvm : lvm = 0 ∨ lvm = 1) (hluks : luks = 0 ∨ luks = 1) (h : UsualHooks original) :
    (∀ hook ∈ requestedHooks filesystemType raidUsed lvm luks,
        (finalHooks filesystemType raidUsed lvm luks original).count hook = 1) ↔
      (luks = 1 →
        original.count (lit "consolefont") ≤ 1 ∧ original.count (lit "keymap") ≤ 1) := by
  have hconsole : luks = 1 → ∀ w, w = lit "consolefont" ∨ w = lit "keymap" →
      ((finalHooks filesystemType raidUsed lvm luks original).count w = 1 ↔
        original.count w ≤ 1) := by
    rintro rfl w hw
    have hne : w ≠ lit "mdadm_udev" ∧ w ≠ lit "zfs" ∧ w ≠ lit "fsck" ∧ w ≠ lit "encrypt" ∧
        w ≠ lit "lvm2" := by
      rcases hw with rfl | rfl <;> simp [lit_eq]
    obtain ⟨hmdadm, hzfs, hfsck, hencrypt, hlvm2⟩ := hne
    have hdevice : w ∉ deviceHooks lvm 1 := by
      rcases hlvm with rfl | rfl <;> simp [deviceHooks, hencrypt, hlvm2]
    have hbefore : (raidHooks raidUsed (filesystemHooks filesystemType original)).count w =
        original.count w := by
      rw [raidHooks, (insertBefore_perm _ _ _).count_eq, List.count_append, filesystemHooks,
        (insertBefore_perm _ _ _).count_eq, List.count_append, ← hooksLeft, count_hooksLeft hfsck]
      cases raidUsed <;> by_cases hfs : filesystemType = lit "zfs" <;>
        simp [hfs, hmdadm.symm, hzfs.symm]
    rw [finalHooks, lvmLuksHooks, (insertBefore_perm _ _ _).count_eq, List.count_append,
      (insertBefore_perm _ _ _).count_eq, List.count_append, List.count_eq_zero_of_not_mem hdevice,
      Nat.zero_add, count_consoleHooks_add hw, hbefore]
  constructor
  · intro honce hluks1
    have hmem : ∀ w ∈ [lit "consolefont", lit "keymap"],
        w ∈ requestedHooks filesystemType raidUsed lvm luks := by
      intro w hw
      rw [requestedHooks, if_pos hluks1]
      exact List.mem_append_left _ (List.mem_append_right _ hw)
    exact ⟨(hconsole hluks1 _ (.inl rfl)).mp (honce _ (hmem _ (by simp))),
      (hconsole hluks1 _ (.inr rfl)).mp (honce _ (hmem _ (by simp)))⟩
  · intro hcount hook hhook
    rw [requestedHooks, rootHooks] at hhook
    simp only [List.mem_append] at hhook
    rcases hhook with ((((hmem | hmem) | hmem) | hmem) | hmem) <;>
      rw [List.mem_ite_nil_right] at hmem <;> obtain ⟨hflag, hmem⟩ := hmem
    · obtain rfl := List.mem_singleton.mp hmem
      rw [count_finalHooks_of_new h.mdadmUdev (by simp [lit_eq]) (by simp [lit_eq])]
      simp [deviceHooks, mdadmHooks, zfsHooks, count_ite_singleton, hflag, lit_eq]
    · obtain rfl := List.mem_singleton.mp hmem
      rw [count_finalHooks_of_new h.encrypt (by simp [lit_eq]) (by simp [lit_eq])]
      simp [deviceHooks, mdadmHooks, zfsHooks, count_ite_singleton, hflag, lit_eq]
    · obtain rfl := List.mem_singleton.mp hmem
      rw [count_finalHooks_of_new h.lvm2 (by simp [lit_eq]) (by simp [lit_eq])]
      simp [deviceHooks, mdadmHooks, zfsHooks, count_ite_singleton, hflag, lit_eq]
    · rcases List.mem_pair.mp hmem with rfl | rfl
      · exact (hconsole hflag _ (.inl rfl)).mpr (hcount hflag).1
      · exact (hconsole hflag _ (.inr rfl)).mpr (hcount hflag).2
    · obtain rfl := List.mem_singleton.mp hmem
      rw [count_finalHooks_of_new h.zfs (by simp [lit_eq]) (by simp [lit_eq])]
      simp [deviceHooks, mdadmHooks, zfsHooks, count_ite_singleton, hflag, lit_eq]

theorem UsualHooks.mem_hooksLeft (hw : w ∈ original) (hne : w ≠ lit "fsck") :
    w ∈ hooksLeft filesystemType original := by
  rw [hooksLeft]
  split_ifs
  · exact (List.mem_erase_of_ne hne).mpr hw
  · exact hw

/-- The order of "block" and "filesystems" is kept. -/
theorem precedes_block (h : UsualHooks original) :
    Precedes (lit "block") (lit "filesystems") (hooksLeft filesystemType original) := by
  have hne : lit "fsck" ≠ lit "block" ∧ lit "fsck" ≠ lit "filesystems" := by simp [lit_eq]
  rw [hooksLeft]
  split_ifs
  · exact h.block_filesystems.erase hne.1 hne.2
  · exact h.block_filesystems

/-- The hooks for the console bring in no other hook. -/
theorem not_mem_consoleHooks {hooks : List Str} (h₁ : w ≠ lit "consolefont") (h₂ : w ≠ lit "keymap") :
    w ∉ consoleHooks luks hooks :=
  List.count_eq_zero.mp (count_consoleHooks h₁ h₂)

theorem not_mem_withConsole {hooks : List Str} (hw : w ∉ hooks) (h₁ : w ≠ lit "consolefont")
    (h₂ : w ≠ lit "keymap") :
    w ∉ insertBefore (lit "keyboard") (consoleHooks luks hooks) hooks := by
  rw [mem_insertBefore, not_or]
  exact ⟨not_mem_consoleHooks h₁ h₂, hw⟩

theorem mem_deviceHooks :
    w ∈ deviceHooks lvm luks ↔ (luks = 1 ∧ w = lit "encrypt") ∨ (lvm = 1 ∧ w = lit "lvm2") := by
  rw [deviceHooks, List.mem_append, List.mem_ite_nil_right, List.mem_ite_nil_right,
    List.mem_singleton, List.mem_singleton]

/-- Precedence before the calls for LVM and LUKS is kept by them. -/
theorem precedes_withConsole {a b : Str} {hooks : List Str} (h : Precedes a b hooks)
    (hb : b = lit "filesystems" ∨ b = lit "zfs") :
    Precedes a b (insertBefore (lit "keyboard") (consoleHooks luks hooks) hooks) := by
  refine precedes_insertBefore h (not_mem_consoleHooks ?_ ?_) <;>
    rcases hb with rfl | rfl <;> simp [lit_eq]

theorem precedes_lvmLuksHooks {a b : Str} {hooks : List Str} (h : Precedes a b hooks)
    (hb : b = lit "filesystems" ∨ b = lit "zfs") :
    Precedes a b (lvmLuksHooks lvm luks hooks) := by
  refine precedes_insertBefore (precedes_withConsole h hb) ?_
  rw [mem_deviceHooks]
  rcases hb with rfl | rfl <;> simp [lit_eq]

/-- The hook for RAID comes before "block", and so before all that "block" precedes. -/
theorem precedes_mdadm {b : Str} {hooks : List Str} (h : Precedes (lit "block") b hooks)
    (hb : b ≠ lit "mdadm_udev") (hraid : raidUsed = true) :
    Precedes (lit "mdadm_udev") b (raidHooks raidUsed hooks) := by
  rw [raidHooks, if_pos hraid]
  have hmdadm : Precedes (lit "mdadm_udev") (lit "block")
      (insertBefore (lit "block") [lit "mdadm_udev"] hooks) :=
    precedes_needle (List.mem_singleton_self _) (by simp [lit_eq])
  exact hmdadm.trans (precedes_insertBefore h (by simpa using hb))

/-- The hook for zfs comes before "filesystems". -/
theorem precedes_zfs (hzfs : filesystemType = lit "zfs") :
    Precedes (lit "zfs") (lit "filesystems")
      (raidHooks raidUsed (filesystemHooks filesystemType original)) := by
  refine precedes_insertBefore ?_ ?_
  · rw [filesystemHooks, if_pos hzfs]
    exact precedes_needle (List.mem_singleton_self _) (by simp [lit_eq])
  · split_ifs <;> simp [lit_eq]

theorem not_mem_before (hw : w ∉ original) (h₁ : w ≠ lit "mdadm_udev") (h₂ : w ≠ lit "zfs") :
    w ∉ raidHooks raidUsed (filesystemHooks filesystemType original) := by
  rw [mem_raidHooks, mem_filesystemHooks]
  rintro (⟨-, rfl⟩ | ⟨-, rfl⟩ | hmem)
  · exact h₁ rfl
  · exact h₂ rfl
  · exact hw (mem_of_mem_hooksLeft hmem)

/-- The hooks for LUKS and LVM come before "filesystems". -/
theorem precedes_device {hooks : List Str} (hw : w ∈ deviceHooks lvm luks) :
    Precedes w (lit "filesystems") (lvmLuksHooks lvm luks hooks) := by
  refine precedes_needle hw ?_
  rw [deviceHooks]
  split_ifs <;> simp [lit_eq]

theorem mem_rootHooks :
    w ∈ rootHooks raidUsed lvm luks ↔
      (raidUsed = true ∧ w = lit "mdadm_udev") ∨ w ∈ deviceHooks lvm luks := by
  rw [rootHooks, deviceHooks, List.append_assoc, List.mem_append, List.mem_ite_nil_right,
    List.mem_singleton]

/-- **When the order boots.** -/
theorem bootable_finalHooks_iff (hlvm : lvm = 0 ∨ lvm = 1) (hluks : luks = 0 ∨ luks = 1)
    (h : UsualHooks original) :
    Bootable filesystemType raidUsed lvm luks original
        (finalHooks filesystemType raidUsed lvm luks original) ↔
      HooksFit filesystemType lvm luks original := by
  have hblock : Precedes (lit "block") (lit "filesystems") (filesystemHooks filesystemType original) := by
    refine precedes_insertBefore (precedes_block h) ?_
    split_ifs <;> simp [lit_eq]
  have hfilesystems : lit "filesystems" ∈ hooksLeft filesystemType original :=
    UsualHooks.mem_hooksLeft h.filesystems (by simp [lit_eq])
  constructor
  · intro hboot
    refine ⟨fun hzfs => ?_, fun hfsck => ?_, (once_iff hlvm hluks h).mp hboot.once⟩
    -- The hooks for LUKS and LVM are inserted after the one for zfs, which then precedes them.
    · have hlate : ∀ w ∈ deviceHooks lvm luks, False := by
        intro w hw
        have hne := (mem_deviceHooks.mp hw).imp And.right And.right
        have hnew : w ∉ insertBefore (lit "keyboard")
            (consoleHooks luks (raidHooks raidUsed (filesystemHooks filesystemType original)))
            (raidHooks raidUsed (filesystemHooks filesystemType original)) := by
          rcases hne with rfl | rfl
          · exact not_mem_withConsole (not_mem_before h.encrypt (by simp [lit_eq])
              (by simp [lit_eq])) (by simp [lit_eq]) (by simp [lit_eq])
          · exact not_mem_withConsole (not_mem_before h.lvm2 (by simp [lit_eq])
              (by simp [lit_eq])) (by simp [lit_eq]) (by simp [lit_eq])
        have hbefore := @precedes_withConsole luks _ _ _
          (@precedes_zfs filesystemType raidUsed original hzfs) (.inl rfl)
        have hmem : lit "filesystems" ∈ insertBefore (lit "keyboard")
            (consoleHooks luks (raidHooks raidUsed (filesystemHooks filesystemType original)))
            (raidHooks raidUsed (filesystemHooks filesystemType original)) :=
          mem_insertBefore.mpr (.inr (mem_raidHooks.mpr (.inr (mem_filesystemHooks.mpr
            (.inr hfilesystems)))))
        have hafter : Precedes (lit "zfs") w
            (finalHooks filesystemType raidUsed lvm luks original) :=
          precedes_inserted hbefore hmem hnew
        have hroot := hboot.zfs hzfs w (mem_rootHooks.mpr (.inr hw))
        have hthere := hboot.once (lit "zfs") (by rw [requestedHooks, if_pos hzfs]; simp)
        exact hafter.not_mem_of_symm hroot (List.count_pos_iff.mp (by omega))
      refine ⟨fun hlvm1 => hlate (lit "lvm2") ?_, fun hluks1 => hlate (lit "encrypt") ?_⟩
      · rw [deviceHooks, if_pos hlvm1]
        simp
      · rw [deviceHooks, if_pos hluks1]
        simp
    · by_contra hcount
      exact hboot.fsck hfsck (hooksLeft_sublist_finalHooks.subset
        ((fsck_mem_hooksLeft_iff hfsck).mpr hcount))
  · intro hfit
    refine ⟨keptHooks_sublist_hooksLeft.trans hooksLeft_sublist_finalHooks, fun hfsck => ?_,
      (once_iff hlvm hluks h).mpr hfit.console, fun hlvm1 hluks1 => ?_, fun w hw => ?_,
      fun hzfs w hw => ?_⟩
    · have hleft : (hooksLeft filesystemType original).count (lit "fsck") = 0 := by
        rw [List.count_eq_zero, fsck_mem_hooksLeft_iff hfsck, not_not]
        exact hfit.fsck hfsck
      rw [← List.count_eq_zero, count_finalHooks, hleft,
        count_consoleHooks (by simp [lit_eq]) (by simp [lit_eq])]
      simp [deviceHooks, mdadmHooks, zfsHooks, count_ite_singleton, lit_eq]
    · refine precedes_inside ?_ (not_mem_withConsole (not_mem_before h.lvm2 (by simp [lit_eq])
        (by simp [lit_eq])) (by simp [lit_eq]) (by simp [lit_eq]))
      rw [deviceHooks, if_pos hluks1, if_pos hlvm1]
      exact precedes_cons.mpr ⟨by simp [lit_eq], .inl rfl⟩
    · rcases mem_rootHooks.mp hw with ⟨hraid, rfl⟩ | hw
      · exact precedes_lvmLuksHooks (precedes_mdadm hblock (by simp [lit_eq]) hraid) (.inl rfl)
      · exact precedes_device hw
    · obtain ⟨hlvm1, hluks1⟩ := hfit.zfs hzfs
      rcases mem_rootHooks.mp hw with ⟨hraid, rfl⟩ | hw
      · refine precedes_lvmLuksHooks (precedes_mdadm ?_ (by simp [lit_eq]) hraid) (.inr rfl)
        refine precedes_inserted (precedes_block h) hfilesystems ?_
        exact fun hmem => h.zfs (mem_of_mem_hooksLeft hmem)
      · rw [deviceHooks, if_neg hluks1, if_neg hlvm1] at hw
        cases hw

end Bootable

/-! ## The file -/

section File

variable {filesystemType : Str} {raidUsed : Bool} {lvm luks : Int}

theorem installBaseCalls_words :
    ∀ call ∈ installBaseCalls filesystemType raidUsed lvm luks, ∀ w ∈ call.args, IsWord w := by
  have hwords : ∀ w ∈ [lit "fsck", lit "btrfs", lit "filesystems", lit "zfs",
      lit "\"/usr/lib/libgcc_s.so.1\"", lit "block", lit "mdadm_udev", lit "raid0", lit "raid1",
      lit "lvm2", lit "keyboard", lit "consolefont", lit "keymap", lit "encrypt"], IsWord w := by
    rw [lit_ofList, lit_ofList, lit_ofList, lit_ofList, lit_ofList, lit_ofList, lit_ofList,
      lit_ofList, lit_ofList, lit_ofList, lit_ofList, lit_ofList, lit_ofList, lit_ofList]
    decide
  simp only [List.forall_mem_cons] at hwords
  simp only [installBaseCalls, List.forall_mem_append]
  refine ⟨⟨?_, ?_⟩, ?_⟩
  · rw [filesystemCalls]
    split_ifs <;> simp [Call.args, hwords]
  · rw [raidCalls]
    split_ifs <;> simp [Call.args, hwords]
  · rw [lvmLuksCalls]
    split_ifs <;> simp [Call.args, hwords]

/-- Reading a file once more and writing it keeps the lists. -/
theorem SpacedLists.flush {path : Str} {s : Session} {L : Lists} (h : SpacedLists path s L) :
    ∃ obj content', s.obj.parseFile s.fs = (true, obj) ∧
      (obj.write s.fs).2.content path = some content' ∧ ∀ f, OnOneLine content' f (L f) := by
  obtain ⟨rfl, content, hfs, hcontent⟩ := h
  obtain ⟨obj, hparse, hpath, hlist⟩ := parseFile_of_onOneLine hfs hcontent
  refine ⟨obj, rewritten content obj, hparse, ?_, fun f => ?_⟩
  · rw [@write_eq content obj _ (hpath.symm ▸ hfs) (hcontent .modules).ne_nil, hpath]
    simp
  · rw [← (hlist f).1]
    exact onOneLine_rewritten hcontent (fun f => (hlist f).2) f

/-- **What `install_base` leaves in the file.** -/
theorem installBaseHooks_content {fs : FileSystem} {obj : Initcpio} {content : Str} {L : Lists}
    (hfs : Holds fs obj.filePath content) (hcontent : ∀ f, OnOneLine content f (L f))
    (hlvm : lvm = 0 ∨ lvm = 1) (hluks : luks = 0 ∨ luks = 1) (h : UsualHooks (L .hooks)) :
    ∃ content', (installBaseHooks filesystemType raidUsed lvm luks ⟨fs, obj⟩).fs.content
        obj.filePath = some content' ∧
      OnOneLine content' .hooks (finalHooks filesystemType raidUsed lvm luks (L .hooks)) := by
  have hstart : SpacedLists obj.filePath ⟨fs, obj⟩ L := ⟨rfl, content, hfs, hcontent⟩
  have hrun := (simulates_spaced obj.filePath).run
    (@installBaseCalls_words filesystemType raidUsed lvm luks) hstart
  obtain ⟨obj', content', hparse, hwrite, hlines⟩ := hrun.flush
  refine ⟨content', ?_, ?_⟩
  · rw [installBaseHooks, hparse]
    exact hwrite
  · rw [← hooks_run_installBaseCalls hlvm hluks h]
    exact hlines .hooks

/-- **When `install_base` leaves hooks in an order that boots.** -/
theorem installBase_bootable_iff {fs : FileSystem} {obj : Initcpio} {content : Str} {L : Lists}
    (hfs : Holds fs obj.filePath content) (hcontent : ∀ f, OnOneLine content f (L f))
    (h : UsualHooks (L .hooks)) (hlvm : lvm = 0 ∨ lvm = 1) (hluks : luks = 0 ∨ luks = 1) :
    (∃ content' hooks, (installBaseHooks filesystemType raidUsed lvm luks ⟨fs, obj⟩).fs.content
        obj.filePath = some content' ∧ OnOneLine content' .hooks hooks ∧
        Bootable filesystemType raidUsed lvm luks (L .hooks) hooks) ↔
      HooksFit filesystemType lvm luks (L .hooks) := by
  obtain ⟨content', hfile, hhooks⟩ := @installBaseHooks_content filesystemType raidUsed _ _ _ _ _ _
    hfs hcontent hlvm hluks h
  rw [← @bootable_finalHooks_iff filesystemType raidUsed _ _ _ hlvm hluks h]
  constructor
  · rintro ⟨content'', hooks, hfile', hhooks', hboot⟩
    obtain rfl := Option.some.inj (hfile.symm.trans hfile')
    rwa [hhooks.unique hhooks']
  · intro hboot
    exact ⟨content', _, hfile, hhooks, hboot⟩

end File

/-- A mkinitcpio.conf as the packages leave it. -/
def packagedContent : Str :=
  lit "MODULES=()\nFILES=()\nHOOKS=(base udev block  filesystems keyboard fsck) # order\n"

/-- The lists it assigns. -/
def packagedLists : Lists
  | .modules => []
  | .files => []
  | .hooks => [lit "base", lit "udev", lit "block", lit "filesystems", lit "keyboard", lit "fsck"]

theorem onOneLine_packagedContent (f : Field) : OnOneLine packagedContent f (packagedLists f) := by
  have hlines : lines packagedContent = [lit "MODULES=()", lit "FILES=()",
      lit "HOOKS=(base udev block  filesystems keyboard fsck) # order", []] := by
    rw [packagedContent, lit_ofList, lit_ofList, lit_ofList, lit_ofList]
    decide
  cases f with
  | modules =>
    refine ⟨[], [], ?_, List.not_mem_nil, rfl⟩
    rw [hlines]
    simp [listLine, assignment, Field.name, startsWith, lit_eq]
  | files =>
    refine ⟨[], [], ?_, List.not_mem_nil, rfl⟩
    rw [hlines]
    simp [listLine, assignment, Field.name, startsWith, lit_eq]
  | hooks =>
    refine ⟨lit "base udev block  filesystems keyboard fsck", lit " # order", ?_, ?_, ?_⟩
    · rw [hlines]
      simp [listLine, assignment, Field.name, startsWith, lit_eq]
    · simp [lit_eq]
    · rw [packagedLists, lit_ofList, lit_ofList, lit_ofList, lit_ofList, lit_ofList, lit_ofList,
        lit_ofList]
      decide

theorem usualHooks_packagedLists : UsualHooks (packagedLists .hooks) where
  block := by simp [packagedLists]
  filesystems := by simp [packagedLists]
  keyboard := by simp [packagedLists]
  block_filesystems := by simp [packagedLists, precedes_cons, precedes_nil, lit_eq]
  mdadmUdev := by simp [packagedLists, lit_eq]
  encrypt := by simp [packagedLists, lit_eq]
  lvm2 := by simp [packagedLists, lit_eq]
  zfs := by simp [packagedLists, lit_eq]

theorem holds_packagedContent :
    Holds (.single samplePath packagedContent) (Initcpio.new samplePath).filePath packagedContent :=
  ⟨FileSystem.content_single _ _, rfl, rfl⟩

/-- LVM on LUKS and RAID, with an ext4 root. -/
theorem installBase_bootable_lvmOnLuks :
    ∃ content' hooks, (installBaseHooks (lit "ext4") true 1 1
        ⟨.single samplePath packagedContent, .new samplePath⟩).fs.content samplePath =
          some content' ∧ OnOneLine content' .hooks hooks ∧
        Bootable (lit "ext4") true 1 1 (packagedLists .hooks) hooks := by
  refine (installBase_bootable_iff holds_packagedContent onOneLine_packagedContent
    usualHooks_packagedLists (.inr rfl) (.inr rfl)).mpr ⟨?_, ?_, fun _ => ⟨?_, ?_⟩⟩
  · simp [lit_eq]
  · simp [removesFsck, lit_eq]
  · simp [packagedLists, lit_eq]
  · simp [packagedLists, lit_eq]

/-- A zfs root on LUKS: the pool is looked for before the device is opened. -/
theorem installBase_zfsOnLuks :
    ∃ content', (installBaseHooks (lit "zfs") false 0 1
        ⟨.single samplePath packagedContent, .new samplePath⟩).fs.content samplePath =
          some content' ∧
      OnOneLine content' .hooks [lit "base", lit "udev", lit "block", lit "zfs", lit "encrypt",
        lit "filesystems", lit "consolefont", lit "keymap", lit "keyboard"] ∧
      ¬ Bootable (lit "zfs") false 0 1 (packagedLists .hooks) [lit "base", lit "udev", lit "block",
        lit "zfs", lit "encrypt", lit "filesystems", lit "consolefont", lit "keymap",
        lit "keyboard"] := by
  have hfinal : finalHooks (lit "zfs") false 0 1 (packagedLists .hooks) =
      [lit "base", lit "udev", lit "block", lit "zfs", lit "encrypt", lit "filesystems",
        lit "consolefont", lit "keymap", lit "keyboard"] := by
    simp [finalHooks, lvmLuksHooks, raidHooks, filesystemHooks, removesFsck, consoleHooks,
      deviceHooks, packagedLists, insertBefore, lit_eq]
  obtain ⟨content', hfile, hhooks⟩ := @installBaseHooks_content (lit "zfs") false 0 1 _ _ _ _
    holds_packagedContent onOneLine_packagedContent (.inl rfl) (.inr rfl) usualHooks_packagedLists
  rw [hfinal] at hhooks
  refine ⟨content', hfile, hhooks, fun hboot => ?_⟩
  have horder := hboot.zfs rfl (lit "encrypt") (by simp [rootHooks])
  simp [precedes_cons, lit_eq] at horder

end CliInstaller
