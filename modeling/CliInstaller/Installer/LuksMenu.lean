import CliInstaller.Installer.Dialogs

/-!
# The LUKS menu

`luks_menu_advanced` opens an encrypted partition, or selects one with a name and a password and
formats it. Every box can be cancelled, and what was entered before stays in the settings. One entry
of the menu tests the two steps the wrong way round: there the partition of the settings is formatted
when selecting one is cancelled, and nothing is when it is not.

Source: `src/crypto.cpp`.

## Main definitions

* `LuksEvent`, `LuksMenuSettings`: what is shown and run, and the settings
* `luksSetup`, `luksEncrypt`, `luksKeyDefine`, `luksMenuAdvanced`: the functions
* `EncryptsChosen`: what the menu is meant to do

## Main results

* `luksSetup_cases`: how selecting a partition ends
* `encryptsChosen_iff`: when the menu does what it is meant to
-/

namespace CliInstaller

open Logging

/-! ## Events and settings -/

/-- What the menu shows and runs. -/
inductive LuksEvent where
  | dialog (dialog : Dialog)
  | infobox (content : Str)
  | exec (command : Str)
  | umountPartitions
  /-- `luks1_format` -/
  | luks1Format (luksPass partition additionalFlags : Str)
  /-- `luks1_open` -/
  | luks1Open (luksPass partition luksName : Str)
  /-- the box of `luks_show` -/
  | luksShow (content : Str)
  deriving DecidableEq, Repr

namespace LuksEvent

/-- A partition is formatted. -/
def isFormat : LuksEvent → Bool
  | luks1Format _ _ _ => true
  | _ => false

/-- The closing box is shown. -/
def isShow : LuksEvent → Bool
  | luksShow _ => true
  | _ => false

/-- No partition is formatted, and the closing box is not shown. -/
def Quiet (e : LuksEvent) : Prop := e.isFormat = false ∧ e.isShow = false

instance : DecidablePred Quiet := fun e =>
  inferInstanceAs (Decidable (e.isFormat = false ∧ e.isShow = false))

end LuksEvent

/-- A computation of the menu; it ends unless a fault ends the program. -/
abbrev Luks (α : Type) := Logged LuksEvent Fault α

/-- The settings that are read and written. -/
structure LuksMenuSettings extends PartitionSettings where
  system : Str
  includePart : Str
  luksRootName : Str
  passwd : Str
  deriving DecidableEq, Repr

/-- What is answered while a partition is selected; none where a box is cancelled. -/
structure VolumeReplies where
  find : FindReplies
  /-- the chosen line -/
  selected : Option Nat
  cryptname : Option Str
  password : Option Str
  deriving DecidableEq, Repr

/-- What is answered in the menu. -/
structure LuksReplies where
  /-- the chosen entry -/
  choice : Option Nat
  volume : VolumeReplies
  /-- the flags of `luks_key_define` -/
  flags : Option Str
  /-- `luks1_format` succeeds -/
  formatted : Bool
  /-- `luks1_open` succeeds -/
  opened : Bool
  /-- the devices that are shown after opening -/
  devlist : Str
  /-- the devices that are shown at the end -/
  lsblk : Str
  deriving DecidableEq, Repr

/-! ## The texts -/

def luksMenuBody : Str :=
  lit "Devices and volumes encrypted using dm_crypt cannot be accessed or\n" ++
    lit "even seen without being unlocked via a key or password."

def luksMenuBody2 : Str :=
  lit "A seperate boot partition without encryption or logical volume management\n" ++
    lit "(LVM - unless using BIOS Grub) is required."

def luksMenuBody3 : Str :=
  lit "The Automatic option uses default encryption settings,\n" ++
    lit "and is recommended for beginners.\n" ++
    lit "Otherwise, it is possible to specify cypher and key size parameters manually."

def luksCryptnameBody : Str :=
  lit "\nSpecify a name for the encrypted block device.\n \n" ++
    lit "It is not necessary to prefix it with /dev/mapper/.\nAn example has been provided.\n"

def luksPassBody : Str :=
  lit "\nEnter a password to un/encrypt the partition.\n \n" ++
    lit "This should not be the same as\nthe Root account or user account passwords.\n"

def luksCipherKey : Str :=
  lit "\nOnce the specified flags have been amended,\nthey will automatically be used with the " ++
    lit "'cryptsetup -q luksFormat /dev/...' command.\n \nNOTE: Key files are not supported;\n" ++
    lit "they can be added manually post-installation.\n" ++
    lit "Do not specify any additional flags such as -v (--verbose) or -y (--verify-passphrase)."

/-! ## The functions -/

def selectCryptPartition (text : Str) (selected : Option Nat) (config : LuksMenuSettings) :
    Luks (Bool × LuksMenuSettings) := do
  Logged.tell [.dialog (.menu config.partitions (lit "\n" ++ text ++ lit "\n"))]
  match selected with
  | none => pure (false, config)
  | some selected =>
    let partition ← Logged.ofExcept (menuAnswer config.partitions selected)
    pure (true, { config with partition })

/-- `get_cryptname`, for the setting. -/
def getCryptname (cryptname : Option Str) (config : LuksMenuSettings) : Luks (Bool × LuksMenuSettings) := do
  Logged.tell [.dialog (.inputbox luksCryptnameBody)]
  match cryptname with
  | none => pure (false, config)
  | some luksRootName => pure (true, { config with luksRootName })

/-- `get_crypt_password`, for the setting. -/
def getCryptPassword (password : Option Str) (config : LuksMenuSettings) :
    Luks (Bool × LuksMenuSettings) := do
  Logged.tell [.dialog (.inputbox luksPassBody)]
  match password with
  | none => pure (false, config)
  | some passwd => pure (true, { config with passwd })

/-- `find_partitions`, with its dialogs. -/
def findLuksPartitions (replies : FindReplies) (config : LuksMenuSettings) : Luks LuksMenuSettings := do
  let (error, list) := findPartitions config.includePart config.system replies.lsblk
    replies.raidPartitionsRaw config.toPartitionSettings
  match error with
  | none => pure { config with toPartitionSettings := list }
  | some luksPartErrBody =>
    Logged.tell ((.msgbox luksPartErrBody :: createPartitionsDialogs replies).map .dialog)
    pure { config with toPartitionSettings := list }

/-- What `luks_open` and `luks_setup` have in common: a partition, a name and a password. -/
def selectVolume (text : Str) (replies : VolumeReplies) (config : LuksMenuSettings) :
    Luks (Bool × LuksMenuSettings) := do
  let (selected, config) ← selectCryptPartition text replies.selected config
  if !selected then pure (false, config)
  else
    let (named, config) ← getCryptname replies.cryptname config
    if !named then pure (false, config)
    else getCryptPassword replies.password config

def luksOpen (replies : LuksReplies) (config : LuksMenuSettings) : Luks (Bool × LuksMenuSettings) := do
  let config := { config with
    luksRootName := [], includePart := lit "part\\|crypt\\|lvm" }
  Logged.tell [.umountPartitions]
  let config ← findLuksPartitions replies.volume.find config
  if config.partitions.isEmpty then
    Logged.tell [.dialog (.msgbox (lit "\nNo LUKS-encrypted partition found.\n"))]
    pure (false, config)
  else
    let (selected, config) ← selectVolume luksMenuBody replies.volume config
    if !selected then pure (false, config)
    else
      Logged.tell [.infobox (lit "\nPlease wait...\n"),
        .luks1Open config.passwd config.partition config.luksRootName]
      if !replies.opened then
        Logged.tell [.dialog (.msgbox (lit "\nFailed to open luks1 partition\n"))]
        pure (false, config)
      else
        Logged.tell [.dialog (.msgbox replies.devlist)]
        pure (true, config)

def luksSetup (replies : VolumeReplies) (config : LuksMenuSettings) : Luks (Bool × LuksMenuSettings) := do
  Logged.tell [.exec (lit "modprobe -a dm-mod dm_crypt"), .umountPartitions]
  let config ← findLuksPartitions replies.find { config with includePart := lit "part\\|lvm" }
  selectVolume (lit "Select a partition to encrypt.") replies config

def luksEncrypt (replies : LuksReplies) (command : Str) (config : LuksMenuSettings) :
    List LuksEvent :=
  [.infobox (lit "\nPlease wait...\n"), .luks1Format config.passwd config.partition command] ++
    (if replies.formatted then []
      else [.dialog (.msgbox (lit "\nFailed to format luks1 partition\n"))]) ++
    [.luks1Open config.passwd config.partition config.luksRootName] ++
    if replies.opened then []
      else [.dialog (.msgbox (lit "\nFailed to open luks1 partition\n"))]

def luksDefault (replies : LuksReplies) (config : LuksMenuSettings) : List LuksEvent :=
  luksEncrypt replies [] config

def luksExpress (replies : LuksReplies) (config : LuksMenuSettings) : List LuksEvent :=
  luksEncrypt replies (lit "--pbkdf-force-iterations 200000") config

def luksKeyDefine (replies : LuksReplies) (config : LuksMenuSettings) : Luks Bool := do
  Logged.tell [.dialog (.inputbox luksCipherKey)]
  match replies.flags with
  | none => pure false
  | some value =>
    Logged.tell (luksEncrypt replies value config)
    pure true

def luksShow (replies : LuksReplies) : List LuksEvent :=
  [.luksShow (lit "\n" ++ lit "Done!" ++ lit "\n \n" ++ replies.lsblk)]

/-- The menu itself. -/
def luksMenu : LuksEvent :=
  .dialog <| .menu [lit "Open Encrypted Partition", lit "Automatic LUKS Encryption",
      lit "Define Key-Size and Cypher", lit "Express LUKS", lit "Back"] <|
    lit "\n" ++ luksMenuBody ++ lit "\n \n" ++ luksMenuBody2 ++ lit "\n \n" ++ luksMenuBody3 ++
      lit "\n"

/-- `!luks_setup() && !luks_key_define()`, with the result of the first: the flags are asked for only
where there is no setup. -/
def setupCancelled (replies : LuksReplies) (ready : Bool) (config : LuksMenuSettings) :
    Luks Bool :=
  if ready then pure false
  else do
    let defined ← luksKeyDefine replies config
    pure (!defined)

/-- What follows the choice of an entry in `luks_menu_advanced`. -/
def luksChoice (replies : LuksReplies) (config : LuksMenuSettings) : Luks LuksMenuSettings :=
  match replies.choice with
  | some 0 => do
    let (_, config) ← luksOpen replies config
    pure config
  | some 1 => do
    let (ready, config) ← luksSetup replies.volume config
    if !ready then pure config
    else
      Logged.tell (luksDefault replies config ++ luksShow replies)
      pure config
  | some 2 => do
    let (ready, config) ← luksSetup replies.volume config
    let cancelled ← setupCancelled replies ready config
    if cancelled then pure config
    else
      Logged.tell (luksShow replies)
      pure config
  | some 3 => do
    let (ready, config) ← luksSetup replies.volume config
    if !ready then pure config
    else
      Logged.tell (luksExpress replies config ++ luksShow replies)
      pure config
  | _ => pure config

def luksMenuAdvanced (replies : LuksReplies) (config : LuksMenuSettings) : Luks LuksMenuSettings := do
  Logged.tell [luksMenu]
  luksChoice replies config

/-! ## Selecting a partition -/

section Setup

variable {text : Str} {replies : VolumeReplies} {config : LuksMenuSettings}

/-- Every box is confirmed. -/
def VolumeReplies.confirmed (replies : VolumeReplies) : Bool :=
  replies.selected.isSome && replies.cryptname.isSome && replies.password.isSome

/-- The chosen line is one of the list, and names a partition. -/
def VolumeReplies.Offered (replies : VolumeReplies) (partitions : List Str) : Prop :=
  ∀ selected, replies.selected = some selected →
    ∃ partition, menuAnswer partitions selected = .ok partition

/-- The settings hold what was entered in this visit. -/
structure EnteredHere (replies : VolumeReplies) (config : LuksMenuSettings) : Prop where
  partition : ∃ selected, replies.selected = some selected ∧
    menuAnswer config.partitions selected = .ok config.partition
  luksRootName : replies.cryptname = some config.luksRootName
  passwd : replies.password = some config.passwd

/-- **How selecting ends**: with a fault, when the chosen line is not one of the list; else it tells
whether every box was confirmed, and the settings hold what was entered. -/
theorem selectVolume_cases :
    (¬ replies.Offered config.partitions ∧
        ∃ fault, (selectVolume text replies config).outcome = .error fault) ∨
      (replies.Offered config.partitions ∧
        ∃ log s, Ends (selectVolume text replies config) log (replies.confirmed, s) ∧
          (replies.confirmed = true → EnteredHere replies s)) := by
  obtain ⟨find, selected, cryptname, password⟩ := replies
  rcases selected with _ | selected
  · exact .inr ⟨nofun, _, config, rfl, nofun⟩
  rcases hanswer : menuAnswer config.partitions selected with fault | partition
  · refine .inl ⟨fun hoffered => ?_, fault, ?_⟩
    · obtain ⟨partition, hpartition⟩ := hoffered selected rfl
      cases hanswer.symm.trans hpartition
    · simp only [selectVolume, selectCryptPartition, hanswer]
      rfl
  have hoffered : VolumeReplies.Offered ⟨find, some selected, cryptname, password⟩
      config.partitions := by
    rintro _ ⟨⟩
    exact ⟨partition, hanswer⟩
  refine .inr ⟨hoffered, ?_⟩
  simp only [selectVolume, selectCryptPartition, hanswer]
  rcases cryptname with _ | luksRootName
  · exact ⟨_, _, rfl, nofun⟩
  rcases password with _ | passwd
  · exact ⟨_, _, rfl, nofun⟩
  · exact ⟨_, _, rfl, fun _ => ⟨⟨selected, rfl, hanswer⟩, rfl, rfl⟩⟩

/-- The settings after the partitions are listed. -/
def LuksMenuSettings.listed (config : LuksMenuSettings) (find : FindReplies) : LuksMenuSettings :=
  { config with
    toPartitionSettings := (findPartitions config.includePart config.system find.lsblk
      find.raidPartitionsRaw config.toPartitionSettings).2 }

/-- The settings with which `luks_setup` shows the partitions. -/
def LuksMenuSettings.forSetup (config : LuksMenuSettings) (find : FindReplies) :
    LuksMenuSettings :=
  LuksMenuSettings.listed { config with includePart := lit "part\\|lvm" } find

/-- Listing the partitions ends. -/
theorem findLuksPartitions_ends (find : FindReplies) (config : LuksMenuSettings) :
    ∃ log, Ends (findLuksPartitions find config) log (config.listed find) := by
  rw [findLuksPartitions, LuksMenuSettings.listed]
  rcases findPartitions config.includePart config.system find.lsblk find.raidPartitionsRaw
    config.toPartitionSettings with ⟨_ | luksPartErrBody, list⟩
  · exact ⟨_, rfl⟩
  · exact ⟨_, rfl⟩

/-- **How `luks_setup` ends.** -/
theorem luksSetup_cases :
    (¬ replies.Offered (config.forSetup replies.find).partitions ∧
        ∃ fault, (luksSetup replies config).outcome = .error fault) ∨
      (replies.Offered (config.forSetup replies.find).partitions ∧
        ∃ log s, Ends (luksSetup replies config) log (replies.confirmed, s) ∧
          (replies.confirmed = true → EnteredHere replies s)) := by
  obtain ⟨log, hfind⟩ := findLuksPartitions_ends replies.find
    { config with includePart := lit "part\\|lvm" }
  rw [← LuksMenuSettings.forSetup] at hfind
  rcases @selectVolume_cases (lit "Select a partition to encrypt.") replies
    (config.forSetup replies.find) with ⟨hnot, fault, herror⟩ | ⟨hoffered, log', s, hends, hs⟩
  · refine .inl ⟨hnot, fault, ?_⟩
    rw [luksSetup, hfind]
    simp only [bind, Logged.bind, Logged.tell]
    exact herror
  · obtain ⟨setupLog, hsetup⟩ : ∃ log, Ends (luksSetup replies config) log (replies.confirmed, s) :=
      exists_ends_bind.mpr ⟨(), ⟨_, ends_tell.mpr rfl⟩,
        exists_ends_bind.mpr ⟨_, ⟨_, hfind⟩, _, hends⟩⟩
    exact .inr ⟨hoffered, setupLog, s, hsetup, hs⟩

/-! ## What formats nothing -/

theorem quiet_dialogs (dialogs : List Dialog) :
    ∀ e ∈ dialogs.map LuksEvent.dialog, e.Quiet := by
  intro e he
  obtain ⟨dialog, -, rfl⟩ := List.mem_map.mp he
  exact ⟨rfl, rfl⟩

theorem quiet_findLuksPartitions (find : FindReplies) (config : LuksMenuSettings) :
    Only LuksEvent.Quiet (findLuksPartitions find config) := by
  rw [findLuksPartitions]
  rcases findPartitions config.includePart config.system find.lsblk find.raidPartitionsRaw
    config.toPartitionSettings with ⟨_ | luksPartErrBody, list⟩
  · exact only_pure _
  · exact (only_tell (quiet_dialogs _)).bind fun _ => only_pure _

theorem quiet_selectVolume : Only LuksEvent.Quiet (selectVolume text replies config) := by
  have hbox : ∀ (cryptname : Option Str) (config : LuksMenuSettings),
      Only LuksEvent.Quiet (getCryptname cryptname config) := fun cryptname config =>
    (only_tell (by decide)).bind fun _ => by cases cryptname <;> exact only_pure _
  have hpass : ∀ (password : Option Str) (config : LuksMenuSettings),
      Only LuksEvent.Quiet (getCryptPassword password config) := fun password config =>
    (only_tell (by decide)).bind fun _ => by cases password <;> exact only_pure _
  have hselect : Only LuksEvent.Quiet (selectCryptPartition text replies.selected config) := by
    refine (only_tell (quiet_dialogs [_])).bind fun _ => ?_
    rcases replies.selected with _ | selected
    · exact only_pure _
    · exact (only_ofExcept _).bind fun _ => only_pure _
  refine hselect.bind fun ⟨selected, config⟩ => ?_
  cases selected
  · exact only_pure _
  · refine (hbox replies.cryptname config).bind fun ⟨named, config⟩ => ?_
    cases named
    · exact only_pure _
    · exact hpass replies.password config

theorem quiet_luksSetup : Only LuksEvent.Quiet (luksSetup replies config) :=
  (only_tell (by decide)).bind fun _ => (quiet_findLuksPartitions _ _).bind fun _ =>
    quiet_selectVolume

theorem quiet_luksOpen (replies : LuksReplies) (config : LuksMenuSettings) :
    Only LuksEvent.Quiet (luksOpen replies config) := by
  refine (only_tell (by decide)).bind fun _ => (quiet_findLuksPartitions _ _).bind fun config => ?_
  by_cases hempty : config.partitions.isEmpty = true
  · rw [if_pos hempty]
    exact (only_tell (by decide)).bind fun _ => only_pure _
  rw [if_neg hempty]
  refine quiet_selectVolume.bind fun ⟨selected, config⟩ => ?_
  cases selected
  · exact only_pure _
  refine (only_tell ?_).bind fun _ => ?_
  · simp [LuksEvent.Quiet, LuksEvent.isFormat, LuksEvent.isShow]
  cases replies.opened
  · exact (only_tell (by decide)).bind fun _ => only_pure _
  · exact (only_tell (quiet_dialogs [_])).bind fun _ => only_pure _

end Setup

/-! ## The menu -/

/-- **The menu encrypts what is chosen**: at most one partition is formatted, and only one that was
chosen in this visit, once every box is confirmed; nothing is when selecting it is cancelled; and
the closing box is shown only where one was. -/
structure EncryptsChosen (replies : LuksReplies) (config : LuksMenuSettings) : Prop where
  once : ((luksMenuAdvanced replies config).log.filter LuksEvent.isFormat).length ≤ 1
  chosen : ∀ luksPass partition flags,
    .luks1Format luksPass partition flags ∈ (luksMenuAdvanced replies config).log →
    ∃ setupLog s rest, Ends (luksSetup replies.volume config) setupLog (true, s) ∧
      (luksMenuAdvanced replies config).log = luksMenu :: (setupLog ++ rest) ∧
      .luks1Format luksPass partition flags ∈ rest ∧ EnteredHere replies.volume s ∧
      luksPass = s.passwd ∧ partition = s.partition ∧
      (replies.choice = some 2 → replies.flags = some flags)
  cancelled : ∀ setupLog s, Ends (luksSetup replies.volume config) setupLog (false, s) →
    ∀ e ∈ (luksMenuAdvanced replies config).log, e.isFormat = false
  done : ∀ e ∈ (luksMenuAdvanced replies config).log, e.isShow = true →
    ∃ e' ∈ (luksMenuAdvanced replies config).log, e'.isFormat = true

section Menu

variable {replies : LuksReplies} {config s : LuksMenuSettings} {command : Str}
  {setupLog : List LuksEvent}

/-- What `luks_encrypt` formats. -/
theorem isFormat_of_mem_luksEncrypt {e : LuksEvent} (h : e ∈ luksEncrypt replies command s)
    (hformat : e.isFormat = true) : e = .luks1Format s.passwd s.partition command := by
  have hcases : e = .luks1Format s.passwd s.partition command ∨ e.isFormat = false := by
    simp only [luksEncrypt, List.mem_append, List.mem_cons, List.not_mem_nil, or_false] at h
    rcases h with ((h | h) | h) | h
    · rcases h with rfl | rfl
      · exact .inr rfl
      · exact .inl rfl
    · split_ifs at h <;> simp at h
      exact .inr (h ▸ rfl)
    · exact .inr (h ▸ rfl)
    · split_ifs at h <;> simp at h
      exact .inr (h ▸ rfl)
  exact hcases.resolve_right (by simp [hformat])

theorem filter_luksEncrypt (replies : LuksReplies) (command : Str) (s : LuksMenuSettings) :
    (luksEncrypt replies command s).filter LuksEvent.isFormat =
      [.luks1Format s.passwd s.partition command] := by
  rw [luksEncrypt]
  cases replies.formatted <;> cases replies.opened <;> rfl

theorem mem_luksEncrypt (replies : LuksReplies) (command : Str) (s : LuksMenuSettings) :
    .luks1Format s.passwd s.partition command ∈ luksEncrypt replies command s := by
  simp [luksEncrypt]

theorem filter_of_quiet {log : List LuksEvent} (h : ∀ e ∈ log, e.Quiet) :
    log.filter LuksEvent.isFormat = [] :=
  List.filter_eq_nil_iff.mpr fun e he => by simp [(h e he).1]

/-- A visit in which nothing is formatted, and the closing box is not shown. -/
theorem encryptsChosen_of_quiet (h : Only LuksEvent.Quiet (luksMenuAdvanced replies config)) :
    EncryptsChosen replies config where
  once := by rw [filter_of_quiet h, List.length_nil]; exact Nat.zero_le _
  chosen _ _ _ hmem := absurd (h _ hmem).1 (by simp [LuksEvent.isFormat])
  cancelled _ _ _ e he := (h e he).1
  done e he hshow := absurd (h e he).2 (by simp [hshow])

/-- A visit in which the partition that was selected is encrypted. -/
theorem encryptsChosen_of_encrypted (hchoice : replies.choice ≠ some 2)
    (hsetup : Ends (luksSetup replies.volume config) setupLog (true, s))
    (hs : EnteredHere replies.volume s)
    (hlog : (luksMenuAdvanced replies config).log =
      luksMenu :: (setupLog ++ (luksEncrypt replies command s ++ luksShow replies))) :
    EncryptsChosen replies config := by
  have hquiet : ∀ e ∈ setupLog, e.Quiet := by
    have hlog' : (luksSetup replies.volume config).log = setupLog := by rw [hsetup]
    exact hlog' ▸ quiet_luksSetup
  have hformat : LuksEvent.luks1Format s.passwd s.partition command ∈
      (luksMenuAdvanced replies config).log := by
    rw [hlog]
    simp [mem_luksEncrypt]
  refine ⟨?_, ?_, ?_, fun _ _ _ => ⟨_, hformat, rfl⟩⟩
  · rw [hlog, List.filter_cons_of_neg (by simp [luksMenu, LuksEvent.isFormat]), List.filter_append,
      List.filter_append, filter_of_quiet hquiet, filter_luksEncrypt]
    simp [luksShow, LuksEvent.isFormat]
  · intro luksPass partition flags hmem
    have hencrypt : LuksEvent.luks1Format luksPass partition flags ∈
        luksEncrypt replies command s := by
      rw [hlog, List.mem_cons, List.mem_append, List.mem_append] at hmem
      rcases hmem with hmem | hmem | hmem | hmem
      · cases hmem
      · exact absurd (hquiet _ hmem).1 (by simp [LuksEvent.isFormat])
      · exact hmem
      · simp [luksShow] at hmem
    obtain ⟨rfl, rfl, rfl⟩ :=
      LuksEvent.luks1Format.inj (isFormat_of_mem_luksEncrypt hencrypt rfl)
    exact ⟨setupLog, s, _, hsetup, hlog, List.mem_append_left _ hencrypt, hs, rfl, rfl,
      fun h => absurd h hchoice⟩
  · intro setupLog' s' hfalse
    have hready := (Prod.mk.inj (Except.ok.inj (Logged.mk.inj (hsetup.symm.trans hfalse)).2)).1
    cases hready

theorem quiet_luksMenu : luksMenu.Quiet := ⟨rfl, rfl⟩

theorem log_luksMenuAdvanced (replies : LuksReplies) (config : LuksMenuSettings) :
    (luksMenuAdvanced replies config).log = luksMenu :: (luksChoice replies config).log := by
  rw [luksMenuAdvanced, log_bind_of_ends (a := ()) (ends_tell.mpr rfl), List.singleton_append]

theorem quiet_luksMenuAdvanced (h : Only LuksEvent.Quiet (luksChoice replies config)) :
    Only LuksEvent.Quiet (luksMenuAdvanced replies config) := by
  rw [Only, log_luksMenuAdvanced]
  exact List.forall_mem_cons.mpr ⟨quiet_luksMenu, h⟩

/-- An entry that selects a partition, and then goes on. -/
theorem log_of_setup {next : Bool × LuksMenuSettings → Luks LuksMenuSettings}
    (hnext : luksChoice replies config = luksSetup replies.volume config >>= next) :
    (¬ replies.volume.Offered (config.forSetup replies.volume.find).partitions ∧
        Only LuksEvent.Quiet (luksMenuAdvanced replies config)) ∨
      (replies.volume.Offered (config.forSetup replies.volume.find).partitions ∧
        ∃ setupLog s, Ends (luksSetup replies.volume config) setupLog
            (replies.volume.confirmed, s) ∧
          (replies.volume.confirmed = true → EnteredHere replies.volume s) ∧
          (∀ e ∈ setupLog, e.Quiet) ∧ (luksMenuAdvanced replies config).log =
            luksMenu :: (setupLog ++ (next (replies.volume.confirmed, s)).log)) := by
  rcases @luksSetup_cases replies.volume config with
    ⟨hnot, fault, herror⟩ | ⟨hoffered, setupLog, s, hsetup, hs⟩
  · refine .inl ⟨hnot, quiet_luksMenuAdvanced ?_⟩
    rw [Only, hnext, log_bind_of_error herror]
    exact quiet_luksSetup
  · have hlog : (luksSetup replies.volume config).log = setupLog := by rw [hsetup]
    refine .inr ⟨hoffered, setupLog, s, hsetup, hs, hlog ▸ quiet_luksSetup, ?_⟩
    rw [log_luksMenuAdvanced, hnext, log_bind_of_ends hsetup]

/-- **An entry that encrypts what was selected** does what the menu is meant to. -/
theorem encryptsChosen_of_entry (hchoice : replies.choice ≠ some 2)
    (hnext : luksChoice replies config = luksSetup replies.volume config >>= fun ready =>
      if !ready.1 then pure ready.2
      else Logged.tell (luksEncrypt replies command ready.2 ++ luksShow replies) >>= fun _ =>
        pure ready.2) : EncryptsChosen replies config := by
  rcases log_of_setup hnext with ⟨-, hquiet⟩ | ⟨-, setupLog, s, hsetup, hs, hquiet, hlog⟩
  · exact encryptsChosen_of_quiet hquiet
  cases hconfirmed : replies.volume.confirmed
  · rw [hconfirmed] at hlog
    refine encryptsChosen_of_quiet ?_
    rw [Only, hlog]
    exact List.forall_mem_cons.mpr ⟨quiet_luksMenu, by simpa [pure] using hquiet⟩
  · rw [hconfirmed] at hlog hsetup
    refine @encryptsChosen_of_encrypted _ _ _ command _ hchoice hsetup (hs hconfirmed) ?_
    exact hlog.trans (by simp [bind, Logged.bind, Logged.tell, pure])

/-- What follows the setup in the entry `Define Key-Size and Cypher`. -/
def afterSetup (replies : LuksReplies) (ready : Bool × LuksMenuSettings) :
    Luks LuksMenuSettings :=
  setupCancelled replies ready.1 ready.2 >>= fun cancelled =>
    if cancelled then pure ready.2
    else Logged.tell (luksShow replies) >>= fun _ => pure ready.2

/-- The entry whose test is the wrong way round: it is right only where nothing is confirmed, or the
setup faults. -/
theorem encryptsChosen_of_two (hchoice : replies.choice = some 2) :
    EncryptsChosen replies config ↔
      ¬ (replies.volume.Offered (config.forSetup replies.volume.find).partitions ∧
        (replies.volume.confirmed = true ∨ replies.flags.isSome = true)) := by
  have hnext : luksChoice replies config =
      luksSetup replies.volume config >>= afterSetup replies := by
    simp only [luksChoice, hchoice]
    rfl
  rcases log_of_setup hnext with ⟨hnot, hquiet⟩ | ⟨hoffered, setupLog, s, hsetup, -, hquiet, hlog⟩
  · exact iff_of_true (encryptsChosen_of_quiet hquiet) fun h => hnot h.1
  rw [and_iff_right hoffered]
  cases hconfirmed : replies.volume.confirmed
  · rw [hconfirmed] at hlog hsetup
    rcases hflags : replies.flags with _ | flags
    · refine iff_of_true (encryptsChosen_of_quiet ?_) (by simp)
      rw [Only, hlog]
      refine List.forall_mem_cons.mpr ⟨quiet_luksMenu, List.forall_mem_append.mpr ⟨hquiet, ?_⟩⟩
      simp only [afterSetup, setupCancelled, luksKeyDefine, hflags]
      exact quiet_dialogs [_]
    · refine iff_of_false (fun h => ?_) (by simp)
      have hmem : LuksEvent.luks1Format s.passwd s.partition flags ∈
          (luksMenuAdvanced replies config).log := by
        rw [hlog]
        simp [afterSetup, setupCancelled, luksKeyDefine, hflags, bind, Logged.bind, Logged.tell,
          pure, mem_luksEncrypt]
      exact absurd (h.cancelled setupLog s hsetup _ hmem) (by simp [LuksEvent.isFormat])
  · rw [hconfirmed] at hlog
    refine iff_of_false (fun h => ?_) (by simp)
    have hafter : (afterSetup replies (true, s)).log = luksShow replies := by
      simp [afterSetup, setupCancelled, bind, Logged.bind, Logged.tell, pure]
    rw [hafter] at hlog
    have hshow : LuksEvent.luksShow (lit "\n" ++ lit "Done!" ++ lit "\n \n" ++ replies.lsblk) ∈
        (luksMenuAdvanced replies config).log := by
      rw [hlog, luksShow]
      simp
    obtain ⟨e, he, hformat⟩ := h.done _ hshow rfl
    rw [hlog, List.mem_cons, List.mem_append] at he
    rcases he with rfl | he | he
    · exact absurd hformat (by simp [quiet_luksMenu.1])
    · exact absurd hformat (by simp [(hquiet e he).1])
    · rw [luksShow, List.mem_singleton] at he
      exact absurd hformat (by simp [he, LuksEvent.isFormat])

/-- **When the menu encrypts what is chosen**: unless the entry `Define Key-Size and Cypher` comes
through `luks_setup` and a setup or the flags are confirmed. -/
theorem encryptsChosen_iff (replies : LuksReplies) (config : LuksMenuSettings) :
    EncryptsChosen replies config ↔
      ¬ (replies.choice = some 2 ∧
        replies.volume.Offered (config.forSetup replies.volume.find).partitions ∧
        (replies.volume.confirmed = true ∨ replies.flags.isSome = true)) := by
  by_cases htwo : replies.choice = some 2
  · rw [encryptsChosen_of_two htwo, and_iff_right htwo]
  refine iff_of_true ?_ fun h => htwo h.1
  rcases hchoice : replies.choice with _ | _ | _ | _ | _ | n
  · refine encryptsChosen_of_quiet (quiet_luksMenuAdvanced ?_)
    rw [luksChoice, hchoice]
    exact only_pure _
  · refine encryptsChosen_of_quiet (quiet_luksMenuAdvanced ?_)
    rw [luksChoice, hchoice]
    exact (quiet_luksOpen replies config).bind fun _ => only_pure _
  · refine @encryptsChosen_of_entry _ _ [] htwo ?_
    simp only [luksChoice, hchoice]
    rfl
  · exact absurd hchoice htwo
  · refine @encryptsChosen_of_entry _ _ (lit "--pbkdf-force-iterations 200000") htwo ?_
    simp only [luksChoice, hchoice]
    rfl
  · refine encryptsChosen_of_quiet (quiet_luksMenuAdvanced ?_)
    rw [luksChoice, hchoice]
    exact only_pure _

end Menu

/-- Selecting a partition is cancelled, and the flags are confirmed: the partition of an earlier visit
is formatted. -/
theorem luksMenu_formats_earlier : ¬ EncryptsChosen
    { choice := some 2
      volume := ⟨⟨lit "/dev/sda1 1G\n/dev/sda2 9G", [], [], none⟩, none, none, none⟩
      flags := some (lit "-s 512 -c aes-xts-plain64")
      formatted := true
      opened := true
      devlist := []
      lsblk := [] }
    { mountpoint := lit "/mnt"
      partition := lit "/dev/sda2"
      partitions := []
      numberPartitions := 0
      swapDevice := []
      system := lit "UEFI"
      includePart := []
      luksRootName := lit "cryptroot"
      passwd := lit "secret" } := by
  rw [encryptsChosen_of_two rfl]
  exact not_not_intro ⟨nofun, .inr rfl⟩

end CliInstaller
