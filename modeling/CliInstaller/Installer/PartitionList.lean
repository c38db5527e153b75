import CliInstaller.General.Machine
import CliInstaller.Gucc.Partition
import CliInstaller.Gucc.StringUtils
import Mathlib.Algebra.Ring.Int.Defs
import Mathlib.Algebra.Ring.Nat

/-!
# The list of available partitions

`find_partitions` stores the lines of the available partitions and their number. Mounting one of
them or turning it into swap takes it off the list: `std::erase_if` removes every line that
contains the name of the device, and the number goes down by one.

Source: `src/utils.cpp`, `src/misc.cpp`, `src/tui.cpp`.

## Main definitions

* `PartitionSettings`: the settings that hold the list
* `findPartitions`, `confirmMount`, `makeSwap`: the functions that write it
* `partitionList`: the machine of the steps that choose an entry of the list
* `KeepsInStep`: a step that removes the entry it uses, and keeps the number in step

## Main results

* `keepsInStep_iff`: when one step does
* `partitionList_iff`: when every step of a run does
-/

namespace CliInstaller

open Splitting Machines

/-! ## The functions -/

/-- `static_cast<std::int32_t>`, and the value a `std::int32_t` holds. -/
def int32 (n : Int) : Int := n.bmod (2 ^ 32)

/-- The settings that are read and written. -/
structure PartitionSettings where
  mountpoint : Str
  partition : Str
  partitions : List Str
  numberPartitions : Int
  swapDevice : Str
  deriving DecidableEq, Repr

/-- `lines[0]` of a line split at its spaces, indexed unchecked. -/
def firstWord (src : Str) : Except Fault Str :=
  match makeMultiline src false ' ' with
  | word :: _ => .ok word
  | [] => .error .indexPastEnd

/-- The answer of a menu whose line `selected` is chosen. -/
def menuAnswer (entries : List Str) (selected : Nat) : Except Fault Str :=
  match entries[selected]? with
  | some src => firstWord src
  | none => .error .indexPastEnd

/-- The text added for each raid partition. -/
def raidDevice (raidPart : Str) : Str :=
  match makeMultiline raidPart false ' ' with
  | [] => []
  | name :: rest => lit "\n" ++ lit "/dev/" ++ name ++ lit " " ++ rest.headD []

/-- `partitions_tmp` once the raid partitions are added. -/
def partitionsTmp (lsblk raidPartitionsRaw : Str) : Str :=
  if raidPartitionsRaw.isEmpty then lsblk
  else (makeMultiline raidPartitionsRaw true '\n').foldl (fun tmp part => tmp ++ raidDevice part) lsblk

/-- The message shown before `create_partitions`, where there are too few partitions. -/
def partitioningError (includePart systemInfo : Str) (numberPartitions : Int) : Option Str :=
  if includePart = lit "part\\|lvm\\|crypt" &&
      ((systemInfo = lit "UEFI" && numberPartitions < 2) ||
        (systemInfo = lit "BIOS" && numberPartitions = 0)) then
    some <| lit "\nBIOS systems require a minimum of one partition (ROOT).\n \n" ++
      lit "UEFI systems require a minimum of two partitions (ROOT and UEFI).\n"
  else if includePart = lit "part\\|crypt" && numberPartitions = 0 then
    some <| lit "\nThere are no viable partitions available to use Logical Volume Manager.\n" ++
      lit "A minimum of one is required.\n\n" ++
      lit "If LVM is already in use, deactivating it will allow the partition(s)\n" ++
      lit "used for its Physical Volume(s) to be used again.\n"
  else if includePart = lit "part\\|lvm" && numberPartitions < 2 then
    some <| lit "\nA minimum of two partitions are required for encryption:\n\n" ++
      lit "1. Root (/) - standard or lvm partition types.\n\n" ++
      lit "2. Boot (/boot or /boot/efi) - standard partition types only\n" ++
      lit "(except lvm where using BIOS Grub).\n"
  else none

/-- `find_partitions`, on the output of its two commands; with the message it shows. -/
def findPartitions (includePart systemInfo lsblk raidPartitionsRaw : Str)
    (settings : PartitionSettings) : Option Str × PartitionSettings :=
  let partitionList := makeMultiline (partitionsTmp lsblk raidPartitionsRaw) true '\n'
  let numberPartitions := int32 partitionList.length
  (partitioningError includePart systemInfo numberPartitions,
    { settings with partitions := partitionList, numberPartitions })

/-- The partition that was used leaves the list. -/
def PartitionSettings.removePartition (settings : PartitionSettings) : PartitionSettings :=
  { settings with
    partitions := settings.partitions.filter fun x => !contains x settings.partition
    numberPartitions := int32 (settings.numberPartitions - 1) }

/-- `confirm_mount`, where `mount | grep` tells whether the partition is mounted. -/
def confirmMount (isMounted quite : Bool) (settings : PartitionSettings) :
    Bool × PartitionSettings :=
  if !quite && !isMounted then (false, settings) else (true, settings.removePartition)

/-- What the user and the commands answer in `make_swap`. -/
structure SwapReplies where
  /-- `get_mountpoint_fs` of the mountpoint -/
  rootFilesystem : Str
  /-- the chosen line, if the menu is not cancelled -/
  selected : Option Nat
  /-- a size with `M` or `G` is entered before the box is cancelled -/
  sizeEntered : Bool
  /-- `make_swapfile` succeeds -/
  swapfileMade : Bool
  /-- the file system `lsblk` reports, where it is a swap -/
  swapPart : Str
  /-- `mkswap` is agreed to -/
  doSwap : Bool
  /-- `make_swap_partition` succeeds -/
  swapPartitionMade : Bool
  /-- `get_device_uuid` -/
  partUuid : Str
  deriving DecidableEq, Repr

/-- The lines of the menu before the partitions. -/
def swapHeaders (rootFilesystem : Str) : List Str :=
  if rootFilesystem = lit "zfs" || rootFilesystem = lit "btrfs" then [lit "None -"]
  else [lit "None -", lit "Swapfile -"]

/-- `make_swap`, with the partition that is added to the schema. -/
def makeSwap (replies : SwapReplies) (settings : PartitionSettings) :
    Except Fault (Option Partition × PartitionSettings) :=
  match replies.selected with
  | none => .ok (none, settings)
  | some selected => do
    let answer ← menuAnswer (swapHeaders replies.rootFilesystem ++ settings.partitions) selected
    -- `None` and `Swapfile` are lines of the menu; a partition of that name is taken for them.
    if answer = lit "None" then
      return (none, settings)
    let settings := { settings with partition := answer }
    if answer = lit "Swapfile" then
      if replies.sizeEntered && replies.swapfileMade then
        return (none, { settings with swapDevice := settings.mountpoint ++ lit "/swapfile" })
      return (none, settings)
    -- A partition that is no swap yet is made one only after asking.
    if replies.swapPart ≠ lit "swap" && !replies.doSwap then
      return (none, settings)
    if !replies.swapPartitionMade then
      return (none, settings)
    let settings := { settings with swapDevice := answer }
    let swapPartition := { Partition.empty with
      fstype := lit "linuxswap", device := answer, mountOpts := lit "defaults",
      uuidStr := replies.partUuid }
    return (some swapPartition, settings.removePartition)

/-! ## The machine -/

/-- A step that chooses an entry of the list. -/
inductive PartitionStep where
  /-- an entry is chosen and mounted, then `confirm_mount` is called -/
  | mount (selected : Nat) (isMounted quite : Bool)
  /-- `make_swap` is called -/
  | swap (replies : SwapReplies)
  deriving DecidableEq, Repr

/-- The steps between two calls of `find_partitions`; each tells whether a partition was used. -/
def partitionList : Machine PartitionSettings PartitionStep (Except Fault Bool) where
  step
    | .mount selected isMounted quite, settings =>
      match menuAnswer settings.partitions selected with
      | .ok partition =>
        let (used, settings) := confirmMount isMounted quite { settings with partition }
        (.ok used, settings)
      | .error fault => (.error fault, settings)
    | .swap replies, settings =>
      match makeSwap replies settings with
      | .ok (swapPartition, settings) => (.ok swapPartition.isSome, settings)
      | .error fault => (.error fault, settings)

namespace PartitionStep

/-- The entry of the list that is chosen, if one is. -/
def entry : PartitionStep → Option Nat
  | mount selected _ _ => some selected
  | swap replies => replies.selected.bind fun selected =>
    let headers := (swapHeaders replies.rootFilesystem).length
    if selected < headers then none else some (selected - headers)

/-- The chosen line is one of the menu. -/
def Offered (settings : PartitionSettings) : PartitionStep → Prop
  | mount selected _ _ => selected < settings.partitions.length
  | swap replies => ∀ selected, replies.selected = some selected →
    selected < (swapHeaders replies.rootFilesystem ++ settings.partitions).length

/-- The chosen partition is used, when nothing fails and the user agrees. -/
def Uses (device : Str) : PartitionStep → Prop
  | mount _ isMounted quite => quite ∨ isMounted
  | swap replies => device ≠ lit "None" ∧ device ≠ lit "Swapfile" ∧
    (replies.swapPart = lit "swap" ∨ replies.doSwap) ∧ replies.swapPartitionMade

instance (device : Str) (step : PartitionStep) : Decidable (step.Uses device) := by
  cases step <;> unfold Uses <;> infer_instance

end PartitionStep

/-! ## What a step does -/

/-- What is left of the list, and of its number, after the step used `device`. -/
structure Removed (device : Str) (settings settings' : PartitionSettings) : Prop where
  partitions : settings'.partitions = settings.partitions.filter fun x => !contains x device
  number : settings'.numberPartitions = int32 (settings.numberPartitions - 1)

/-- The list and its number are as before. -/
structure Unchanged (settings settings' : PartitionSettings) : Prop where
  partitions : settings'.partitions = settings.partitions
  number : settings'.numberPartitions = settings.numberPartitions

/-- **What a step does** that chooses an entry. -/
inductive Outcome (step : PartitionStep) (src : Str) (settings : PartitionSettings) :
    Except Fault Bool × PartitionSettings → Prop
  /-- the entry consists of spaces -/
  | blank (settings' : PartitionSettings) (h : firstWord src = .error .indexPastEnd) :
      Outcome step src settings (.error .indexPastEnd, settings')
  | used (settings' : PartitionSettings) (device : Str) (hdevice : firstWord src = .ok device)
      (huses : step.Uses device) (h : Removed device settings settings') :
      Outcome step src settings (.ok true, settings')
  | unused (settings' : PartitionSettings) (device : Str) (hdevice : firstWord src = .ok device)
      (huses : ¬ step.Uses device) (h : Unchanged settings settings') :
      Outcome step src settings (.ok false, settings')

theorem Unchanged.refl (settings : PartitionSettings) : Unchanged settings settings := ⟨rfl, rfl⟩

theorem firstWord_fault {src : Str} {fault : Fault} (h : firstWord src = .error fault) :
    fault = .indexPastEnd := by
  rw [firstWord] at h
  split at h <;> simp_all

/-- `make_swap` once the menu is answered. -/
theorem makeSwap_answer {replies : SwapReplies} {settings : PartitionSettings} {n : Nat}
    {device : Str} (hselected : replies.selected = some n)
    (hanswer : menuAnswer (swapHeaders replies.rootFilesystem ++ settings.partitions) n =
      .ok device) :
    ∃ swapPartition settings', makeSwap replies settings = .ok (swapPartition, settings') ∧
      if (PartitionStep.swap replies).Uses device then
        swapPartition.isSome ∧ Removed device settings settings'
      else swapPartition = none ∧ Unchanged settings settings' := by
  rw [makeSwap, hselected]
  simp only [hanswer, PartitionStep.Uses, bind, Except.bind, pure, Except.pure]
  by_cases hnone : device = lit "None"
  · exact ⟨none, settings, by rw [if_pos hnone], by simp [hnone, Unchanged.refl]⟩
  rw [if_neg hnone]
  by_cases hfile : device = lit "Swapfile"
  · rw [if_pos hfile]
    by_cases hmade : (replies.sizeEntered && replies.swapfileMade) = true
    · exact ⟨none, _, by rw [if_pos hmade], by simpa [hfile] using ⟨rfl, rfl⟩⟩
    · exact ⟨none, _, by rw [if_neg hmade], by simpa [hfile] using ⟨rfl, rfl⟩⟩
  rw [if_neg hfile]
  by_cases hdeclined : (replies.swapPart ≠ lit "swap" && !replies.doSwap) = true
  · refine ⟨none, _, by rw [if_pos hdeclined], ?_⟩
    have huses : ¬ (replies.swapPart = lit "swap" ∨ replies.doSwap = true) := by
      simpa using hdeclined
    simpa [huses] using ⟨rfl, rfl⟩
  rw [if_neg hdeclined]
  by_cases hmade : replies.swapPartitionMade = true
  · refine ⟨some _, _, by rw [if_neg (by simpa using hmade)], ?_⟩
    have huses : replies.swapPart = lit "swap" ∨ replies.doSwap = true := by
      simpa [or_iff_not_imp_left] using hdeclined
    simpa [hnone, hfile, huses, hmade] using ⟨rfl, rfl⟩
  · exact ⟨none, _, by rw [if_pos (by simpa using hmade)], by simpa [hmade] using ⟨rfl, rfl⟩⟩

/-- Every step that chooses an entry has one of the outcomes. -/
theorem outcome_of_entry {step : PartitionStep} {settings : PartitionSettings} {k : Nat}
    (hentry : step.entry = some k) (hk : k < settings.partitions.length) :
    Outcome step settings.partitions[k] settings (partitionList.step step settings) := by
  cases step with
  | mount selected isMounted quite =>
    obtain rfl := Option.some.inj hentry
    have hanswer : menuAnswer settings.partitions selected =
        firstWord settings.partitions[selected] := by
      simp [menuAnswer, hk]
    simp only [partitionList, hanswer]
    rcases hdevice : firstWord settings.partitions[selected] with fault | device
    · obtain rfl := firstWord_fault hdevice
      exact .blank _ hdevice
    · simp only [confirmMount]
      split
      next hfail =>
        exact .unused _ device hdevice (by simpa [PartitionStep.Uses] using hfail) ⟨rfl, rfl⟩
      next huses =>
        refine .used _ device hdevice ?_ ⟨rfl, rfl⟩
        simpa [PartitionStep.Uses, or_iff_not_imp_left] using huses
  | swap replies =>
    obtain ⟨n, hselected, hn⟩ := Option.bind_eq_some_iff.mp hentry
    dsimp only at hn
    split_ifs at hn with hheader
    obtain rfl := Option.some.inj hn
    have hanswer : menuAnswer (swapHeaders replies.rootFilesystem ++ settings.partitions) n =
        firstWord settings.partitions[n - (swapHeaders replies.rootFilesystem).length] := by
      simp [menuAnswer, List.getElem?_append_right (Nat.le_of_not_lt hheader), hk]
    rcases hdevice : firstWord settings.partitions[n - (swapHeaders replies.rootFilesystem).length]
      with fault | device
    · obtain rfl := firstWord_fault hdevice
      have hswap : makeSwap replies settings = .error .indexPastEnd := by
        simp [makeSwap, hselected, hanswer, hdevice, bind, Except.bind]
      simp only [partitionList, hswap]
      exact .blank _ hdevice
    · obtain ⟨swapPartition, settings', hswap, h⟩ :=
        makeSwap_answer hselected (hanswer.trans hdevice)
      simp only [partitionList, hswap]
      split_ifs at h with huses
      · rw [h.1]
        exact .used _ device hdevice huses h.2
      · rw [h.1]
        exact .unused _ device hdevice huses h.2

/-- The lines before the partitions are no partitions. -/
theorem firstWord_header {rootFilesystem header : Str} (h : header ∈ swapHeaders rootFilesystem) :
    firstWord header = .ok (lit "None") ∨ firstWord header = .ok (lit "Swapfile") := by
  have hall : ∀ header ∈ [lit "None -", lit "Swapfile -"],
      firstWord header = .ok (lit "None") ∨ firstWord header = .ok (lit "Swapfile") := by
    decide +kernel
  refine hall header ?_
  rw [swapHeaders] at h
  split_ifs at h
  · exact List.mem_cons.mpr (.inl (List.mem_singleton.mp h))
  · exact h

/-- A step that chooses no entry leaves the list as it is. -/
theorem step_of_no_entry {step : PartitionStep} {settings : PartitionSettings}
    (hentry : step.entry = none) :
    (partitionList.step step settings).1 = .ok false ∧
      Unchanged settings (partitionList.step step settings).2 := by
  cases step with
  | mount selected isMounted quite => simp [PartitionStep.entry] at hentry
  | swap replies =>
    rcases hselected : replies.selected with _ | n
    · have hswap : makeSwap replies settings = .ok (none, settings) := by
        simp [makeSwap, hselected]
      simp [partitionList, hswap, Unchanged.refl]
    have hheader : n < (swapHeaders replies.rootFilesystem).length := by
      by_contra hn
      simp [PartitionStep.entry, hselected, hn] at hentry
    have hanswer : menuAnswer (swapHeaders replies.rootFilesystem ++ settings.partitions) n =
        firstWord (swapHeaders replies.rootFilesystem)[n] := by
      simp [menuAnswer, List.getElem?_append_left hheader, hheader]
    have hno : ∀ device, device = lit "None" ∨ device = lit "Swapfile" →
        ¬ (PartitionStep.swap replies).Uses device := by
      rintro device hdevice ⟨hnone, hfile, -⟩
      exact hdevice.elim hnone hfile
    obtain ⟨device, hdevice, hkind⟩ : ∃ device, firstWord (swapHeaders replies.rootFilesystem)[n] =
        .ok device ∧ (device = lit "None" ∨ device = lit "Swapfile") := by
      rcases firstWord_header (List.getElem_mem hheader) with h | h
      · exact ⟨_, h, .inl rfl⟩
      · exact ⟨_, h, .inr rfl⟩
    obtain ⟨swapPartition, settings', hswap, h⟩ :=
      makeSwap_answer hselected (hanswer.trans hdevice)
    rw [if_neg (hno device hkind)] at h
    simp [partitionList, hswap, h]

/-! ## The list and its number -/

/-- `NUMBER_PARTITIONS` is the length of `PARTITIONS`. -/
def InStep (settings : PartitionSettings) : Prop :=
  settings.numberPartitions = settings.partitions.length

/-- **The step removes exactly the entry it used**, if it used one, and keeps the number in step. -/
structure KeepsInStep (step : PartitionStep) (settings : PartitionSettings) : Prop where
  removes : ∃ used, (partitionList.step step settings).1 = .ok used ∧
    (partitionList.step step settings).2.partitions =
      if used then step.entry.elim settings.partitions settings.partitions.eraseIdx
      else settings.partitions
  inStep : InStep (partitionList.step step settings).2

/-- The chosen entry has a device and, if the device is used, no other entry contains its name. -/
def OnlyEntry (step : PartitionStep) (settings : PartitionSettings) : Prop :=
  ∀ k src, step.entry = some k → settings.partitions[k]? = some src →
    ∃ device, firstWord src = .ok device ∧
      (step.Uses device → ∀ x ∈ settings.partitions.eraseIdx k, contains x device = false)

theorem int32_of_lt {n : Nat} (h : n < 2 ^ 31) : int32 n = n :=
  Int.bmod_eq_of_le (by omega) (by omega)

theorem int32_lt (n : Int) : int32 n < 2 ^ 31 := by
  have h := Int.bmod_lt (x := n) (m := 2 ^ 32) (by decide)
  exact h

/-- The device of an entry is part of its line. -/
theorem contains_firstWord {src device : Str} (h : firstWord src = .ok device) :
    contains src device = true := by
  have hpiece : device ∈ pieces ' ' src := by
    rw [firstWord, makeMultiline, if_neg Bool.false_ne_true, makeSplitView_eq] at h
    split at h
    next word rest heq =>
      obtain rfl := Except.ok.inj h
      exact heq ▸ List.mem_cons_self
    next => simp at h
  exact contains_of_occurs (infix_of_mem_pieces hpiece)

theorem filter_eraseIdx {α : Type} {q : α → Bool} {l : List α} {k : Nat} (hk : k < l.length)
    (h : q l[k] = false) : (l.eraseIdx k).filter q = l.filter q := by
  induction l generalizing k with
  | nil => simp at hk
  | cons a l ih =>
    cases k with
    | zero => simp_all
    | succ k =>
      rw [List.eraseIdx_cons_succ, List.filter_cons, List.filter_cons, ih (by simpa using hk) h]

theorem PartitionStep.Offered.entry_lt {step : PartitionStep} {settings : PartitionSettings}
    (h : step.Offered settings) {k : Nat} (hentry : step.entry = some k) :
    k < settings.partitions.length := by
  cases step with
  | mount selected isMounted quite =>
    obtain rfl := Option.some.inj hentry
    exact h
  | swap replies =>
    obtain ⟨n, hselected, hn⟩ := Option.bind_eq_some_iff.mp hentry
    have hlt := h n hselected
    dsimp only at hn
    split_ifs at hn with hheader
    obtain rfl := Option.some.inj hn
    rw [List.length_append] at hlt
    omega

/-- **When a step keeps the number in step** with the list. -/
theorem keepsInStep_iff {step : PartitionStep} {settings : PartitionSettings}
    (hin : InStep settings) (hsmall : settings.partitions.length < 2 ^ 31)
    (hoffered : step.Offered settings) :
    KeepsInStep step settings ↔ OnlyEntry step settings := by
  rcases hentry : step.entry with _ | k
  · obtain ⟨hanswer, hsame⟩ : _ ∧ Unchanged settings _ := step_of_no_entry hentry
    refine iff_of_true ⟨⟨false, hanswer, hsame.partitions⟩, ?_⟩ (by simp [OnlyEntry, hentry])
    rw [InStep, hsame.number, hsame.partitions, hin]
  have hk := hoffered.entry_lt hentry
  have houtcome := outcome_of_entry hentry hk
  have hsrc : settings.partitions[k]? = some settings.partitions[k] := List.getElem?_eq_getElem hk
  generalize hstep : partitionList.step step settings = result at houtcome
  cases houtcome with
  | blank settings' hblank =>
    refine iff_of_false ?_ ?_
    · rintro ⟨⟨used, hused, -⟩, -⟩
      simp [hstep] at hused
    · intro honly
      obtain ⟨device, hdevice, -⟩ := honly k _ hentry hsrc
      simp [hblank] at hdevice
  | unused settings' device hdevice huses h =>
    refine iff_of_true ⟨⟨false, by rw [hstep], by rw [hstep]; exact h.partitions⟩, ?_⟩ ?_
    · rw [InStep, hstep, h.number, h.partitions, hin]
    · intro k' src hk' hsrc'
      obtain rfl := Option.some.inj (hentry.symm.trans hk')
      obtain rfl := Option.some.inj (hsrc.symm.trans hsrc')
      exact ⟨device, hdevice, fun huse => absurd huse huses⟩
  | used settings' device hdevice huses h =>
    -- The entry itself contains the name, so what is left is left of the other entries.
    have hfilter : settings'.partitions =
        (settings.partitions.eraseIdx k).filter fun x => !contains x device := by
      rw [h.partitions, filter_eraseIdx hk (by simp [contains_firstWord hdevice])]
    constructor
    · rintro ⟨⟨used, hused, hremoves⟩, -⟩ k' src hk' hsrc'
      obtain rfl := Option.some.inj (hentry.symm.trans hk')
      obtain rfl := Option.some.inj (hsrc.symm.trans hsrc')
      refine ⟨device, hdevice, ?_⟩
      intro _ x hx
      rw [hstep] at hused hremoves
      obtain rfl := Except.ok.inj hused
      rw [if_pos rfl, hentry, Option.elim_some, hfilter, List.filter_eq_self] at hremoves
      simpa using hremoves x hx
    · intro honly
      obtain ⟨device', hdevice', hothers⟩ := honly k _ hentry hsrc
      obtain rfl := Except.ok.inj (hdevice.symm.trans hdevice')
      have herased : settings'.partitions = settings.partitions.eraseIdx k := by
        rw [hfilter, List.filter_eq_self]
        intro x hx
        simp [hothers huses x hx]
      refine ⟨⟨true, by rw [hstep], by rw [hstep, hentry]; exact herased⟩, ?_⟩
      have hpred : (settings.partitions.length : Int) - 1 =
          (settings.partitions.length - 1 : Nat) := by
        omega
      rw [InStep, hstep, h.number, herased, List.length_eraseIdx_of_lt hk, hin, hpred,
        int32_of_lt (by omega)]

/-- The list does not grow. -/
theorem KeepsInStep.length_le {step : PartitionStep} {settings : PartitionSettings}
    (h : KeepsInStep step settings) :
    (partitionList.step step settings).2.partitions.length ≤ settings.partitions.length := by
  obtain ⟨used, -, hlist⟩ := h.removes
  rw [hlist]
  split_ifs
  · cases step.entry with
    | none => exact le_rfl
    | some k => exact List.length_eraseIdx_le _ _
  · exact le_rfl

theorem findPartitions_numberPartitions {includePart systemInfo lsblk raidPartitionsRaw : Str}
    {initial settings : PartitionSettings}
    (hfind : (findPartitions includePart systemInfo lsblk raidPartitionsRaw initial).2 = settings) :
    settings.numberPartitions = int32 settings.partitions.length := by
  rw [← hfind, findPartitions]

/-- **In every run the number is that of the list, and each step removes the entry it used**, iff
the list is not too long for the counter and the name of a used device is in no other entry. -/
theorem partitionList_iff {includePart systemInfo lsblk raidPartitionsRaw : Str}
    {initial settings : PartitionSettings} {steps : List PartitionStep}
    (hfind : (findPartitions includePart systemInfo lsblk raidPartitionsRaw initial).2 = settings)
    (hoffered : partitionList.Along (fun step settings => step.Offered settings) steps settings) :
    InStep settings ∧ partitionList.Along KeepsInStep steps settings ↔
      settings.partitions.length < 2 ^ 31 ∧ partitionList.Along OnlyEntry steps settings := by
  have hstart : InStep settings ↔ settings.partitions.length < 2 ^ 31 := by
    have hnumber := findPartitions_numberPartitions hfind
    rw [InStep, hnumber]
    constructor
    · intro h
      have hlt := int32_lt settings.partitions.length
      omega
    · exact int32_of_lt
  rw [hstart]
  apply and_congr_right
  intro hsmall
  refine Machine.Along.iff_of_invariant
    (I := fun settings => InStep settings ∧ settings.partitions.length < 2 ^ 31)
    (fun step settings h hoffered => keepsInStep_iff h.1 h.2 hoffered)
    (fun step settings h _ hkeeps => ⟨hkeeps.inStep, hkeeps.length_le.trans_lt h.2⟩)
    hoffered ⟨hstart.mpr hsmall, hsmall⟩

/-- The list found on a system with the given devices, `/dev/sda1` the last of the list. -/
def foundWith (device : Str) : PartitionSettings :=
  (findPartitions (lit "part\\|lvm\\|crypt") (lit "UEFI")
    (lit "/dev/sda1 512M\n" ++ device ++ lit " 50G\n") [] ⟨lit "/mnt", [], [], 0, []⟩).2

theorem foundWith_eq (device : Str) :
    (findPartitions (lit "part\\|lvm\\|crypt") (lit "UEFI")
      (lit "/dev/sda1 512M\n" ++ device ++ lit " 50G\n") [] ⟨lit "/mnt", [], [], 0, []⟩).2 =
      foundWith device := by
  rw [foundWith]

theorem partitionList_iff_sdb1 :
    InStep (foundWith (lit "/dev/sdb1")) ∧
        partitionList.Along KeepsInStep [.mount 1 true false] (foundWith (lit "/dev/sdb1")) ↔
      (foundWith (lit "/dev/sdb1")).partitions.length < 2 ^ 31 ∧
        partitionList.Along OnlyEntry [.mount 1 true false] (foundWith (lit "/dev/sdb1")) :=
  partitionList_iff (foundWith_eq _)
    ⟨(by decide +kernel : 1 < (foundWith (lit "/dev/sdb1")).partitions.length), trivial⟩

/-- Mounting `/dev/sda1` takes `/dev/sda10` off the list too, and counts one. -/
theorem partitionList_sda10 :
    partitionList.Along (fun step settings => step.Offered settings) [.mount 1 true false]
        (foundWith (lit "/dev/sda10")) ∧
      (partitionList.run [.mount 1 true false] (foundWith (lit "/dev/sda10"))).partitions = [] ∧
      (partitionList.run [.mount 1 true false] (foundWith (lit "/dev/sda10"))).numberPartitions = 1 ∧
      ¬ partitionList.Along KeepsInStep [.mount 1 true false] (foundWith (lit "/dev/sda10")) := by
  have hlist : (partitionList.step (.mount 1 true false)
      (foundWith (lit "/dev/sda10"))).2.partitions = [] := by
    decide +kernel
  have hnumber : (partitionList.step (.mount 1 true false)
      (foundWith (lit "/dev/sda10"))).2.numberPartitions = 1 := by
    decide +kernel
  refine ⟨⟨(by decide +kernel : 1 < (foundWith (lit "/dev/sda10")).partitions.length), trivial⟩,
    hlist, hnumber, fun h => ?_⟩
  have hin := h.1.inStep
  rw [InStep, hlist, hnumber] at hin
  simp at hin

end CliInstaller
