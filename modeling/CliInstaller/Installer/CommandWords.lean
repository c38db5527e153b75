import CliInstaller.Gucc.CommandLines
import CliInstaller.Installer.SubvolumeMounts

/-!
# Arguments that are kept apart

The commands that create a zpool or a group or mount a subvolume are put together from pieces, some
of which may be left out. The blanks that separate the pieces are not part of all of them.

Source: `gucc/src/zfs.cpp`, `gucc/src/user.cpp`, `gucc/src/btrfs.cpp`, `src/disk.cpp`.

## Main definitions

* `User.createGroup`: the command line, for a system group too
* `zpoolOptions`: the options that the installer creates its zpool with
* `ArgumentCall`: the commands; `line` is the text, `meant` are the tokens that are meant

## Main results

* `ArgumentCall.parse_line_iff`: when the shell reads what is meant
-/

namespace CliInstaller

open Shell Splitting

/-! ## The commands -/

namespace User

/-- `user::create_group` -/
def createGroup (group mountpoint : Str) (isSystem : Bool) : Str :=
  archChrootChecked
    (lit "groupadd --force " ++ (if isSystem then lit "--system" else []) ++ group) mountpoint

end User

/-- `zpool_options` of `zfs_auto_pres` -/
def zpoolOptions : Str :=
  lit "-f -o ashift=12 -o autotrim=on -O mountpoint=none -O acltype=posixacl -O atime=off " ++
    lit "-O relatime=off -O xattr=sa -O normalization=formD -O dnodesize=auto"

/-- A call that runs one of the commands. -/
inductive ArgumentCall where
  | zfsCreateZpool (devicePath poolName poolOptions : Str) (passphrase : Option Str)
  | createGroup (group mountpoint : Str) (isSystem : Bool)
  | btrfsMountSubvols (subvol : BtrfsSubvolume) (device rootMountpoint mountOpts : Str)

/-- A text of characters that a shell reads as they are, wherever they stand. -/
def Literal (text : Str) : Prop :=
  ∀ c ∈ text, special c = false ∧ (c ≠ '#' ∧ c ≠ '~') ∧ c ≠ '['

instance (text : Str) : Decidable (Literal text) := List.decidableBAll _ text

/-- Such a text that is not empty. -/
def LiteralWord (text : Str) : Prop := text ≠ [] ∧ Literal text

instance (text : Str) : Decidable (LiteralWord text) := by
  unfold LiteralWord
  infer_instance

/-- The options that encrypt a zpool. -/
def encryptionWords : List Token :=
  [.word (lit "-O"), .word (lit "encryption=aes-256-gcm"), .word (lit "-O"),
    .word (lit "keyformat=passphrase")]

/-- The passphrase is piped to the command. -/
def pipeTokens : Option Str → List Token
  | some passphrase => [.word (lit "echo"), .word passphrase, .operator ['|']]
  | none => []

namespace ArgumentCall

/-- **The command line.** -/
def line : ArgumentCall → Str
  | zfsCreateZpool devicePath poolName poolOptions passphrase =>
    CliInstaller.zfsCreateZpool devicePath poolName poolOptions passphrase
  | createGroup group mountpoint isSystem => User.createGroup group mountpoint isSystem
  | btrfsMountSubvols subvol device rootMountpoint mountOpts =>
    Fs.mountCmd (Fs.mountOption subvol mountOpts) device (rootMountpoint ++ subvol.mountpoint)

/-- **The tokens that are meant**: every argument is a word of its own, and so is every word of the
options of a zpool. -/
def meant : ArgumentCall → List Token
  | zfsCreateZpool devicePath poolName poolOptions passphrase =>
    pipeTokens passphrase ++ [.word (lit "zpool"), .word (lit "create")] ++
      (words blank poolOptions).map .word ++
      (if passphrase.isSome then encryptionWords else []) ++
      .word poolName :: .word devicePath :: errorTokens
  | createGroup group mountpoint isSystem =>
    [.word (lit "arch-chroot"), .word mountpoint, .word (lit "groupadd"), .word (lit "--force")] ++
      (if isSystem then [.word (lit "--system")] else []) ++ .word group :: logTokens
  | btrfsMountSubvols subvol device rootMountpoint mountOpts =>
    [.word (lit "mount"), .word (lit "-o"), .word (Fs.mountOption subvol mountOpts), .word device,
      .word (rootMountpoint ++ subvol.mountpoint)]

/-- The arguments have literal characters only; blanks are for the options. -/
def LiteralArguments : ArgumentCall → Prop
  | zfsCreateZpool devicePath poolName poolOptions passphrase =>
    LiteralWord devicePath ∧ LiteralWord poolName ∧ PlainText poolOptions ∧
      ∀ text ∈ passphrase, Literal text
  | createGroup group mountpoint _ => LiteralWord group ∧ LiteralWord mountpoint
  | btrfsMountSubvols subvol device rootMountpoint mountOpts =>
    Literal subvol.subvolume ∧ Literal subvol.mountpoint ∧ LiteralWord device ∧
      LiteralWord rootMountpoint ∧ PlainText mountOpts

/-- **The pieces are separated**: a zpool is not encrypted, and its options end in a blank, if there
are any; the group is no system group; a subvolume has options, without a blank. -/
def Separated : ArgumentCall → Prop
  | zfsCreateZpool _ _ poolOptions passphrase =>
    passphrase = none ∧ (poolOptions = [] ∨ poolOptions.getLast? = some ' ')
  | createGroup _ _ isSystem => isSystem = false
  | btrfsMountSubvols subvol _ _ mountOpts =>
    (subvol.subvolume ≠ [] ∨ mountOpts ≠ []) ∧ ' ' ∉ mountOpts

end ArgumentCall

/-! ## How the shell reads them -/

section Literals

variable {text : Str}

theorem Literal.plainText (h : Literal text) : PlainText text :=
  fun c hc => ⟨.inl (h c hc).1, (h c hc).2⟩

theorem Literal.blank (h : Literal text) : ∀ c ∈ text, blank c = false := by
  intro c hc
  have hspecial := (h c hc).1
  simp only [special, Bool.or_eq_false_iff] at hspecial
  exact hspecial.1.1.2

theorem Literal.quotable (h : Literal text) : Quotable text := by
  constructor
  · exact fun hc => absurd (h _ hc).1 (by decide)
  · exact fun hc => absurd (h _ hc).1 (by decide)

theorem Literal.append {text' : Str} (h : Literal text) (h' : Literal text') :
    Literal (text ++ text') :=
  List.forall_mem_append.mpr ⟨h, h'⟩

theorem Literal.intercalate {sep : Str} {texts : List Str} (hsep : Literal sep)
    (h : ∀ text ∈ texts, Literal text) : Literal (sep.intercalate texts) := by
  induction texts with
  | nil => simp [Literal]
  | cons text texts ih =>
    have htext := h text List.mem_cons_self
    have htexts := ih fun text htext => h text (List.mem_cons_of_mem _ htext)
    rcases texts with _ | ⟨text', texts⟩
    · rwa [List.intercalate_singleton]
    · rw [List.intercalate_cons_cons]
      exact (htext.append hsep).append htexts

theorem LiteralWord.plainWord (h : LiteralWord text) : PlainWord text :=
  ⟨h.1, fun c hc => (h.2 c hc).1, fun c hc => (h.2 c (List.mem_of_mem_head? hc)).2.1,
    Bracket.unclosed_of_not_mem fun hopen => (h.2 _ hopen).2.2 rfl⟩

theorem LiteralWord.words (h : LiteralWord text) : words Shell.blank text = [text] :=
  words_eq_singleton_iff.mpr ⟨h.1, h.2.blank⟩

theorem LiteralWord.doubleQuotable (h : LiteralWord text) : DoubleQuotable text := by
  intro c hc
  have hspecial := (h.2 c hc).1
  refine ⟨?_, ?_, ?_, ?_⟩ <;> rintro rfl <;> exact absurd hspecial (by decide)

end Literals

/-- The tokens of a text that is piped to a command. -/
theorem parse_piped {passphrase cmd : Str} {tokens : List Token} (h : Quotable passphrase) :
    parse (lit "echo '" ++ passphrase ++ lit "' | " ++ cmd) =
        some (pipeTokens (some passphrase) ++ tokens) ↔ parse cmd = some tokens := by
  rw [echo_eq, parse_plainWord (by rw [lit_ofList]; decide), parse_quoted h, parse_pipe,
    Option.map_map, Option.map_map]
  exact @map_append_eq_some _ (pipeTokens (some passphrase)) tokens

/-- The command that creates a zpool, with all its options in one text. -/
theorem parse_zpoolCreate {devicePath poolName options : Str} {tokens : List Token}
    (hdevice : LiteralWord devicePath) (hpool : LiteralWord poolName) (hoptions : PlainText options) :
    parse (lit "zpool create " ++ options ++
        (lit "'" ++ poolName ++ lit "' '" ++ devicePath ++ lit "' 2>>/tmp/cachyos-install.log")) =
        some ([.word (lit "zpool"), .word (lit "create")] ++ tokens ++
          .word poolName :: .word devicePath :: errorTokens) ↔
      (options = [] ∨ options.getLast? = some ' ') ∧ (words blank options).map .word = tokens := by
  have hline : lit "zpool create " ++ options ++
      (lit "'" ++ poolName ++ lit "' '" ++ devicePath ++ lit "' 2>>/tmp/cachyos-install.log") =
        lit "zpool" ++ ' ' :: (lit "create" ++ ' ' :: (options ++ ('\x27' :: poolName ++
          '\x27' :: ' ' :: ('\x27' :: devicePath ++
            '\x27' :: ' ' :: '2' :: '>' :: lit ">/tmp/cachyos-install.log")))) := by
    simp [lit_eq]
  have hrest : parse ('\x27' :: devicePath ++
      '\x27' :: ' ' :: '2' :: '>' :: lit ">/tmp/cachyos-install.log") =
        some (.word devicePath :: errorTokens) := by
    rw [parse_quoted hdevice.2.quotable, parse_errors]
    rfl
  rw [hline, parse_plainWord (by rw [lit_ofList]; decide),
    parse_plainWord (by rw [lit_ofList]; decide), Option.map_map,
    ← hoptions.parse_quoted_iff hpool.2.quotable hrest, List.append_assoc]
  exact @map_append_eq_some _ [.word (lit "zpool"), .word (lit "create")] _

/-- A command that is run in the target, which consists of plain words. -/
theorem parse_archChrootChecked {command mountpoint : Str} (hmountpoint : LiteralWord mountpoint)
    (hcommand : PlainText command) :
    parse (archChrootChecked command mountpoint) =
      some ([.word (lit "arch-chroot"), .word mountpoint] ++ (words blank command).map .word ++
        logTokens) := by
  have hline : archChrootChecked command mountpoint =
      lit "arch-chroot" ++ ' ' :: (mountpoint ++ ' ' :: (command ++
        ' ' :: '2' :: '>' :: lit ">/tmp/cachyos-install.log 1>/dev/null")) := by
    simp [archChrootChecked, lit_eq]
  rw [hline, parse_plainWord (by rw [lit_ofList]; decide), parse_plainWord hmountpoint.plainWord,
    hcommand.parse_words, parse_log]
  rfl

/-- The command that mounts a subvolume. -/
theorem parse_mountCmd_iff {options device mountpoint : Str} (hoptions : PlainText options)
    (hdevice : LiteralWord device) (hmountpoint : PlainWord mountpoint) :
    parse (Fs.mountCmd options device mountpoint) =
        some [.word (lit "mount"), .word (lit "-o"), .word options, .word device,
          .word mountpoint] ↔
      options ≠ [] ∧ ' ' ∉ options := by
  have hline : Fs.mountCmd options device mountpoint =
      lit "mount" ++ ' ' :: (lit "-o" ++ ' ' :: (options ++ ' ' :: ('\x22' :: device ++
        '\x22' :: ' ' :: mountpoint))) := by
    simp [Fs.mountCmd, lit_eq]
  have hread : parse (Fs.mountCmd options device mountpoint) =
      some ([.word (lit "mount"), .word (lit "-o")] ++ (words blank options).map .word ++
        [.word device, .word mountpoint]) := by
    rw [hline, parse_plainWord (by rw [lit_ofList]; decide),
      parse_plainWord (by rw [lit_ofList]; decide), hoptions.parse_words,
      parse_doubleQuoted hdevice.doubleQuotable hdevice.2.quotable.2, parse_last hmountpoint]
    simp
  have hmeant : [Token.word (lit "mount"), .word (lit "-o"), .word options, .word device,
      .word mountpoint] = [.word (lit "mount"), .word (lit "-o")] ++ [options].map .word ++
        [.word device, .word mountpoint] := rfl
  rw [hread, hmeant, Option.some.injEq, List.append_cancel_right_eq, List.append_cancel_left_eq,
    List.map_inj_right (fun _ _ => Token.word.inj), words_eq_singleton_iff]
  refine and_congr_right fun _ => ⟨fun h hmem => ?_, fun h c hc => ?_⟩
  · exact absurd (h ' ' hmem) (by decide)
  · rcases (hoptions c hc).1 with hspecial | rfl
    · simp only [special, Bool.or_eq_false_iff] at hspecial
      exact hspecial.1.1.2
    · exact absurd hc h

/-! ## When the arguments are kept apart -/

/-- **A zpool** gets a name and a device of its own iff it is not encrypted, and a blank ends its
options. -/
theorem parse_zfsCreateZpool_iff {devicePath poolName poolOptions : Str} {passphrase : Option Str}
    (hdevice : LiteralWord devicePath) (hpool : LiteralWord poolName)
    (hoptions : PlainText poolOptions) (hpassphrase : ∀ text ∈ passphrase, Literal text) :
    parse (zfsCreateZpool devicePath poolName poolOptions passphrase) =
        some (pipeTokens passphrase ++ [.word (lit "zpool"), .word (lit "create")] ++
          (words blank poolOptions).map .word ++
          (if passphrase.isSome then encryptionWords else []) ++
          .word poolName :: .word devicePath :: errorTokens) ↔
      passphrase = none ∧ (poolOptions = [] ∨ poolOptions.getLast? = some ' ') := by
  rcases passphrase with _ | text
  · have hline : zfsCreateZpool devicePath poolName poolOptions none =
        lit "zpool create " ++ poolOptions ++ (lit "'" ++ poolName ++ lit "' '" ++ devicePath ++
          lit "' 2>>/tmp/cachyos-install.log") := by
      simp [zfsCreateZpool]
    have hread := @parse_zpoolCreate _ _ _ ((words blank poolOptions).map .word) hdevice hpool hoptions
    rw [hline, and_iff_right rfl, ← and_iff_left (a := poolOptions = [] ∨ _) rfl, ← hread]
    simp [pipeTokens]
  · have hline : zfsCreateZpool devicePath poolName poolOptions (some text) =
        lit "echo '" ++ text ++ lit "' | " ++ (lit "zpool create " ++
          (poolOptions ++ lit "-O encryption=aes-256-gcm -O keyformat=passphrase") ++
          (lit "'" ++ poolName ++ lit "' '" ++ devicePath ++
            lit "' 2>>/tmp/cachyos-install.log")) := by
      simp [zfsCreateZpool]
    have hencryption : PlainText (lit "-O encryption=aes-256-gcm -O keyformat=passphrase") := by
      rw [lit_ofList]
      decide
    have hread := @parse_zpoolCreate _ _ _ ((words blank poolOptions).map .word ++ encryptionWords)
      hdevice hpool (hoptions.append hencryption)
    have hlast : (poolOptions ++ lit "-O encryption=aes-256-gcm -O keyformat=passphrase").getLast? =
        some 'e' := by
      rw [List.getLast?_append_of_ne_nil _ (by rw [lit_ofList]; decide), lit_ofList]
      rfl
    have hmeant : pipeTokens (some text) ++ [.word (lit "zpool"), .word (lit "create")] ++
        (words blank poolOptions).map .word ++
        (if (some text).isSome then encryptionWords else []) ++
        .word poolName :: .word devicePath :: errorTokens =
          pipeTokens (some text) ++ ([.word (lit "zpool"), .word (lit "create")] ++
            ((words blank poolOptions).map .word ++ encryptionWords) ++
            .word poolName :: .word devicePath :: errorTokens) := by
      simp only [List.append_assoc, Option.isSome_some, if_true]
    rw [hline, hmeant, parse_piped (hpassphrase text rfl).quotable, hread]
    refine iff_of_false ?_ (by simp)
    rintro ⟨hempty | hblank, -⟩
    · rw [hempty] at hlast
      cases hlast
    · rw [hblank] at hlast
      exact absurd (Option.some.inj hlast) (by decide)

/-- **A group** is named by a word of its own iff it is no system group. -/
theorem parse_createGroup_iff {group mountpoint : Str} {isSystem : Bool} (hgroup : LiteralWord group)
    (hmountpoint : LiteralWord mountpoint) :
    parse (User.createGroup group mountpoint isSystem) =
        some ([.word (lit "arch-chroot"), .word mountpoint, .word (lit "groupadd"),
          .word (lit "--force")] ++ (if isSystem then [.word (lit "--system")] else []) ++
            .word group :: logTokens) ↔ isSystem = false := by
  have hname : LiteralWord ((if isSystem then lit "--system" else []) ++ group) := by
    refine ⟨List.append_ne_nil_of_right_ne_nil _ hgroup.1, Literal.append ?_ hgroup.2⟩
    split_ifs
    · rw [lit_ofList]
      decide
    · exact fun c hc => absurd hc List.not_mem_nil
  have hbase : lit "groupadd --force " = lit "groupadd" ++ ' ' :: (lit "--force" ++ [' ']) := by
    simp [lit_eq]
  have hcommand : lit "groupadd --force " ++ (if isSystem then lit "--system" else []) ++ group =
      lit "groupadd" ++ ' ' :: (lit "--force" ++ ' ' ::
        ((if isSystem then lit "--system" else []) ++ group)) := by
    rw [hbase]
    simp only [List.append_assoc, List.cons_append, List.nil_append]
  have hplain : PlainText (lit "groupadd --force " ++
      (if isSystem then lit "--system" else []) ++ group) := by
    rw [List.append_assoc]
    exact PlainText.append (by rw [lit_ofList]; decide) hname.2.plainText
  have hgroupadd : words blank (lit "groupadd") = [lit "groupadd"] :=
    LiteralWord.words (by rw [lit_ofList]; decide)
  have hforce : words blank (lit "--force") = [lit "--force"] :=
    LiteralWord.words (by rw [lit_ofList]; decide)
  rw [User.createGroup, parse_archChrootChecked hmountpoint hplain, hcommand,
    words_append_cons rfl, words_append_cons rfl, hname.words, hgroupadd, hforce]
  cases isSystem with
  | false => exact iff_of_true rfl rfl
  | true =>
    refine iff_of_false (fun h => ?_) (Bool.noConfusion)
    have hlength := congrArg List.length (Option.some.inj h)
    simp only [if_true, List.length_append, List.length_map, List.length_cons,
      List.length_nil] at hlength
    omega

/-- **A subvolume** is mounted with its options as one word iff there are any, without a blank. -/
theorem parse_btrfsMountSubvols_iff {subvol : BtrfsSubvolume} {device rootMountpoint mountOpts : Str}
    (hsubvolume : Literal subvol.subvolume) (hmountpoint : Literal subvol.mountpoint)
    (hdevice : LiteralWord device) (hroot : LiteralWord rootMountpoint)
    (hoptions : PlainText mountOpts) :
    parse (Fs.mountCmd (Fs.mountOption subvol mountOpts) device
        (rootMountpoint ++ subvol.mountpoint)) =
        some [.word (lit "mount"), .word (lit "-o"), .word (Fs.mountOption subvol mountOpts),
          .word device, .word (rootMountpoint ++ subvol.mountpoint)] ↔
      (subvol.subvolume ≠ [] ∨ mountOpts ≠ []) ∧ ' ' ∉ mountOpts := by
  have hdir : LiteralWord (rootMountpoint ++ subvol.mountpoint) :=
    ⟨List.append_ne_nil_of_left_ne_nil hroot.1 _, hroot.2.append hmountpoint⟩
  by_cases hempty : subvol.subvolume = []
  · have hoption : Fs.mountOption subvol mountOpts = mountOpts := by
      simp [Fs.mountOption, hempty]
    rw [hoption, parse_mountCmd_iff hoptions hdevice hdir.plainWord]
    simp [hempty]
  · have hoption : Fs.mountOption subvol mountOpts =
        lit "subvol=" ++ subvol.subvolume ++ lit "," ++ mountOpts := by
      simp [Fs.mountOption, hempty]
    have hplain : PlainText (lit "subvol=" ++ subvol.subvolume ++ lit "," ++ mountOpts) :=
      ((PlainText.append (by rw [lit_ofList]; decide) hsubvolume.plainText).append
        (by rw [lit_ofList]; decide)).append hoptions
    rw [hoption, parse_mountCmd_iff hplain hdevice hdir.plainWord]
    have hblank : ' ' ∉ subvol.subvolume := fun hc => absurd (hsubvolume.blank _ hc) (by decide)
    simp [hempty, hblank, lit_eq]

namespace ArgumentCall

/-- **The shell reads what is meant** iff the pieces are separated. -/
theorem parse_line_iff (call : ArgumentCall) (h : call.LiteralArguments) :
    parse call.line = some call.meant ↔ call.Separated := by
  cases call with
  | zfsCreateZpool devicePath poolName poolOptions passphrase =>
    obtain ⟨hdevice, hpool, hoptions, hpassphrase⟩ := h
    exact parse_zfsCreateZpool_iff hdevice hpool hoptions hpassphrase
  | createGroup group mountpoint isSystem => exact parse_createGroup_iff h.1 h.2
  | btrfsMountSubvols subvol device rootMountpoint mountOpts =>
    obtain ⟨hsubvolume, hmountpoint, hdevice, hroot, hoptions⟩ := h
    exact parse_btrfsMountSubvols_iff hsubvolume hmountpoint hdevice hroot hoptions

/-- The subvolume of the root directory. -/
def rootSubvolume : ArgumentCall :=
  btrfsMountSubvols ⟨lit "/@", lit "/"⟩ (lit "/dev/sda2") (lit "/mnt") (lit "noatime")

theorem parse_line_iff_rootSubvolume : parse rootSubvolume.line = some rootSubvolume.meant := by
  have hsubvolume : Literal (lit "/@") := by rw [lit_ofList]; decide
  have hmountpoint : Literal (lit "/") := by rw [lit_ofList]; decide
  have hdevice : LiteralWord (lit "/dev/sda2") := by rw [lit_ofList]; decide
  have hroot : LiteralWord (lit "/mnt") := by rw [lit_ofList]; decide
  have hoptions : PlainText (lit "noatime") := by rw [lit_ofList]; decide
  have hseparated : (lit "/@" ≠ [] ∨ lit "noatime" ≠ []) ∧ ' ' ∉ lit "noatime" := by
    rw [lit_ofList, lit_ofList]
    decide
  exact (parse_line_iff rootSubvolume
    ⟨hsubvolume, hmountpoint, hdevice, hroot, hoptions⟩).mpr hseparated

/-- The zpool of the installer: its options do not end in a blank. -/
def installerZpool : ArgumentCall :=
  zfsCreateZpool (lit "/dev/sda2") (lit "zpcachyos") zpoolOptions none

/-- The name of the zpool is part of its last option. -/
theorem parse_line_installerZpool :
    installerZpool.LiteralArguments ∧ parse installerZpool.line ≠ some installerZpool.meant := by
  have hdevice : LiteralWord (lit "/dev/sda2") := by rw [lit_ofList]; decide
  have hpool : LiteralWord (lit "zpcachyos") := by rw [lit_ofList]; decide
  have hoptions : PlainText zpoolOptions := by
    rw [zpoolOptions, lit_ofList, lit_ofList]
    decide +kernel
  have hpassphrase : ∀ text ∈ (none : Option Str), Literal text := by simp
  have hglued : ¬ (zpoolOptions = [] ∨ zpoolOptions.getLast? = some ' ') := by
    rw [zpoolOptions, lit_ofList, lit_ofList]
    decide +kernel
  refine ⟨⟨hdevice, hpool, hoptions, hpassphrase⟩, fun h => hglued ?_⟩
  exact ((parse_zfsCreateZpool_iff hdevice hpool hoptions hpassphrase).mp h).2

end ArgumentCall

end CliInstaller
