import CliInstaller.General.Shell
import CliInstaller.Gucc.StringUtils

/-!
# `gucc::user`, `gucc::crypto`, `gucc::fs`: command lines with secrets and names

The commands that set a password, create a user, open or format a LUKS device and create a zpool are
formatted into one text each, which `system` or `popen` hands to a shell. A passphrase is put between
single quotes; a password, a user name and the name of a LUKS mapping are not quoted at all.

Source: `gucc/src/user.cpp`, `gucc/src/luks.cpp`, `gucc/src/zfs.cpp`, `gucc/src/io_utils.cpp`.

## Main definitions

* `Replies`, `runChecked`: what the commands answer, and a run that ends at the first that fails
* `setUserPassword`, `createNewUser`, `luks1Open`, `luks1Format`, `zfsCreateZpool`: the command lines
* `Secret`, `SecretCall`: the texts that a user gives, and a call with them
* `SecretCall.CommandsKept`: the commands are read as meant, and a passphrase is piped as one line

## Main results

* `SecretCall.keeps_iff_safe`: for which texts the shell reads the commands that were meant
-/

namespace CliInstaller

open Shell Splitting

/-! ## The command lines -/

/-- What the commands answer: the text they print, and whether they succeed. -/
structure Replies where
  output : Str → Str
  succeeds : Str → Bool

/-- Every command succeeds, and `openssl passwd` prints this text. -/
def Replies.allSucceed (encryptedPasswd : Str) : Replies :=
  ⟨fun _ => encryptedPasswd, fun _ => true⟩

/-- Commands that are each checked, up to the first that fails. -/
def runChecked (replies : Replies) : List Str → List Str
  | [] => []
  | cmd :: cmds => if replies.succeeds cmd then cmd :: runChecked replies cmds else [cmd]

/-- `utils::arch_chroot_checked`: `"arch-chroot {} {} 2>>/tmp/cachyos-install.log 1>/dev/null"` -/
def archChrootChecked (command mountpoint : Str) : Str :=
  lit "arch-chroot " ++ mountpoint ++ [' '] ++ command ++
    lit " 2>>/tmp/cachyos-install.log 1>/dev/null"

/-- `user::create_group`; no caller asks for a system group. -/
def createGroup (group mountpoint : Str) : Str :=
  archChrootChecked (lit "groupadd --force " ++ group) mountpoint

/-- The command that `user::set_user_password` lets encrypt the password: `"openssl passwd {}"` -/
def opensslPasswd (password : Str) : Str := lit "openssl passwd " ++ password

/-- `password_set_cmd`: `"usermod -p '{}' {}"` -/
def passwordSetCmd (encryptedPasswd username : Str) : Str :=
  lit "usermod -p '" ++ encryptedPasswd ++ lit "' " ++ username

/-- `user::set_user_password` -/
def setUserPassword (replies : Replies) (username password mountpoint : Str) : List Str :=
  let encryptedPasswd := replies.output (opensslPasswd password)
  [opensslPasswd password,
    archChrootChecked (passwordSetCmd encryptedPasswd username) mountpoint]

/-- `user::UserInfo` -/
structure UserInfo where
  username : Str
  password : Str
  shell : Str
  sudoersGroup : Str

def userCmd (username userShell : Str) : Str :=
  if userShell.isEmpty then lit "useradd -m -U " ++ username
  else lit "useradd -m -U -s " ++ userShell ++ [' '] ++ username

def groupsSetCmd (defaultGroups : List Str) (username : Str) : Str :=
  lit "usermod -aG " ++ join defaultGroups ',' ++ [' '] ++ username

def setupCmd (username : Str) : Str :=
  lit "chown -R " ++ (username ++ [':'] ++ username) ++ [' '] ++ (lit "/home/" ++ username)

/-- The commands of `user::create_new_user` before the password is set. -/
def createUserCmds (userInfo : UserInfo) (defaultGroups : List Str) (mountpoint : Str) : List Str :=
  defaultGroups.map (createGroup · mountpoint) ++
    [archChrootChecked (userCmd userInfo.username userInfo.shell) mountpoint,
      archChrootChecked (groupsSetCmd defaultGroups userInfo.username) mountpoint,
      archChrootChecked (setupCmd userInfo.username) mountpoint]

/-- `user::create_new_user`; the sudoers file is written without a command. -/
def createNewUser (replies : Replies) (userInfo : UserInfo) (defaultGroups : List Str)
    (mountpoint : Str) : List Str :=
  if !userInfo.sudoersGroup.isEmpty && !defaultGroups.contains userInfo.sudoersGroup then []
  else
    let cmds := createUserCmds userInfo defaultGroups mountpoint
    if cmds.all replies.succeeds then
      cmds ++ setUserPassword replies userInfo.username userInfo.password mountpoint
    else runChecked replies cmds

/-- `crypto::luks1_open` -/
def luks1Open (luksPass partition luksName : Str) : Str :=
  lit "echo '" ++ luksPass ++ lit "' | cryptsetup open --type luks1 " ++ partition ++ [' '] ++
    luksName ++ lit " &>/dev/null"

/-- `crypto::luks1_format` -/
def luks1Format (luksPass partition additionalFlags : Str) : Str :=
  lit "echo '" ++ luksPass ++ lit "' | cryptsetup -q " ++ additionalFlags ++
    lit " --type luks1 luksFormat " ++ partition ++ lit " &>/dev/null"

/-- `fs::zfs_create_zpool`; nothing separates the options from the encryption. -/
def zfsCreateZpool (devicePath poolName poolOptions : Str) (passphrase : Option Str) : Str :=
  let cmd := lit "zpool create " ++ poolOptions ++
    (if passphrase.isSome then lit "-O encryption=aes-256-gcm -O keyformat=passphrase" else []) ++
    (lit "'" ++ poolName ++ lit "' '" ++ devicePath ++ lit "' 2>>/tmp/cachyos-install.log")
  match passphrase with
  | some passphrase => lit "echo '" ++ passphrase ++ lit "' | " ++ cmd
  | none => cmd

/-! ## Calls with texts from the user -/

/-- The texts that a user gives. -/
inductive Secret where
  | password
  | userName
  | luksPassphrase
  | luksName
  | zpoolPassphrase
  deriving DecidableEq, Repr

/-- A call and its other arguments. -/
inductive SecretCall where
  | setUserPassword (mountpoint : Str)
  | createNewUser (shell sudoersGroup : Str) (defaultGroups : List Str) (mountpoint : Str)
  | luks1Open (partition : Str)
  | luks1Format (partition additionalFlags : Str)
  | zfsCreateZpool (devicePath poolName poolOptions : Str)

namespace SecretCall

/-- **The command lines of a call.** -/
def lines (replies : Replies) : SecretCall → (Secret → Str) → List Str
  | setUserPassword mountpoint, σ =>
    CliInstaller.setUserPassword replies (σ .userName) (σ .password) mountpoint
  | createNewUser shell sudoersGroup defaultGroups mountpoint, σ =>
    CliInstaller.createNewUser replies ⟨σ .userName, σ .password, shell, sudoersGroup⟩ defaultGroups
      mountpoint
  | luks1Open partition, σ => [CliInstaller.luks1Open (σ .luksPassphrase) partition (σ .luksName)]
  | luks1Format partition additionalFlags, σ =>
    [CliInstaller.luks1Format (σ .luksPassphrase) partition additionalFlags]
  | zfsCreateZpool devicePath poolName poolOptions, σ =>
    [CliInstaller.zfsCreateZpool devicePath poolName poolOptions (some (σ .zpoolPassphrase))]

end SecretCall

/-! ## How the shell reads them -/

section Lines

variable {mountpoint partition : Str} {σ : Secret → Str}

/-- The redirections of `arch_chroot_checked`. -/
def logTokens : List Token :=
  [.ioNumber ['2'], .operator ['>', '>'], .word (lit "/tmp/cachyos-install.log"),
    .ioNumber ['1'], .operator ['>'], .word (lit "/dev/null")]

theorem parse_log :
    parse ('2' :: '>' :: lit ">/tmp/cachyos-install.log 1>/dev/null") = some logTokens := by
  unfold logTokens
  repeat rw [lit_ofList]
  decide +kernel

/-- What is appended to a command to log its errors. -/
def errorTokens : List Token :=
  [.ioNumber ['2'], .operator ['>', '>'], .word (lit "/tmp/cachyos-install.log")]

theorem parse_errors : parse ('2' :: '>' :: lit ">/tmp/cachyos-install.log") = some errorTokens := by
  unfold errorTokens
  repeat rw [lit_ofList]
  decide +kernel

theorem whole_archChroot (hmountpoint : PlainText mountpoint) :
    Whole (lit "arch-chroot " ++ mountpoint) :=
  PlainText.whole (PlainText.append (by rw [lit_ofList]; decide) hmountpoint)

theorem archChrootChecked_eq (command mountpoint : Str) :
    archChrootChecked command mountpoint = (lit "arch-chroot " ++ mountpoint) ++
      ' ' :: (command ++ ' ' :: '2' :: '>' :: lit ">/tmp/cachyos-install.log 1>/dev/null") := by
  simp [archChrootChecked, lit_eq]

/-- The last word of a command that `arch-chroot` runs. -/
theorem archChrootChecked_keeps_iff {command : Str} (i : Secret)
    (hmountpoint : PlainText mountpoint) (hcommand : Whole command) :
    Keeps (fun σ => [archChrootChecked (command ++ [' '] ++ σ i) mountpoint]) σ ↔
      PlainWord (σ i) := by
  obtain ⟨tokens, htokens⟩ := (whole_archChroot hmountpoint).append_blank hcommand
  refine keeps_hole_iff (fun name => archChrootChecked (command ++ [' '] ++ name) mountpoint) tokens
    logTokens (fun name => ?_) fun name hname => hname.plainWord
  have hline : archChrootChecked (command ++ [' '] ++ name) mountpoint =
      (lit "arch-chroot " ++ mountpoint ++ ' ' :: command) ++
        ' ' :: (name ++ ' ' :: '2' :: '>' :: lit ">/tmp/cachyos-install.log 1>/dev/null") := by
    simp [archChrootChecked_eq]
  rw [hline, htokens, map_append_eq_some]
  exact parse_before_number_iff parse_log (by rw [lit_ofList]; decide) (by rw [lit_ofList]; decide +kernel)

/-- A command without a text from the user. -/
theorem archChrootChecked_keeps {command : Str} (hmountpoint : PlainText mountpoint)
    (hcommand : Whole command) : Keeps (fun _ => [archChrootChecked command mountpoint]) σ := by
  obtain ⟨tokens, htokens⟩ := (whole_archChroot hmountpoint).append_blank hcommand
  refine @keeps_const _ _ (tokens ++ logTokens) ?_ σ
  have hline : archChrootChecked command mountpoint =
      (lit "arch-chroot " ++ mountpoint ++ ' ' :: command) ++
        ' ' :: '2' :: '>' :: lit ">/tmp/cachyos-install.log 1>/dev/null" := by
    simp [archChrootChecked_eq]
  rw [hline, htokens, parse_log]
  rfl

theorem opensslPasswd_keeps_iff :
    Keeps (fun σ => [opensslPasswd (σ .password)]) σ ↔ PlainWord (σ .password) := by
  have hwhole : Whole (lit "openssl passwd") := PlainText.whole (by rw [lit_ofList]; decide)
  obtain ⟨tokens, htokens⟩ := hwhole
  refine keeps_hole_iff opensslPasswd tokens [] (fun password => ?_)
    fun password hpassword => hpassword.plainWord
  have hline : opensslPasswd password = lit "openssl passwd" ++ ' ' :: password := by
    simp [opensslPasswd, lit_eq]
  rw [hline, htokens, map_append_eq_some]
  exact parse_last_iff

theorem passwordSetCmd_keeps_iff {encryptedPasswd : Str} (hmountpoint : PlainText mountpoint)
    (hencrypted : Quotable encryptedPasswd) :
    Keeps (fun σ => [archChrootChecked (passwordSetCmd encryptedPasswd (σ .userName)) mountpoint]) σ ↔
      PlainWord (σ .userName) := by
  have hwhole : Whole (lit "usermod -p" ++ ' ' :: ('\x27' :: encryptedPasswd ++ ['\x27'])) :=
    Whole.append_blank (PlainText.whole (by rw [lit_ofList]; decide)) hencrypted.whole
  have hcmd (username : Str) : passwordSetCmd encryptedPasswd username =
      lit "usermod -p" ++ ' ' :: ('\x27' :: encryptedPasswd ++ ['\x27']) ++ [' '] ++ username := by
    simp [passwordSetCmd, lit_eq]
  simp only [hcmd]
  exact archChrootChecked_keeps_iff .userName hmountpoint hwhole

/-- The owner of a home directory, and the directory. -/
def homeShape : List (Shape Secret) :=
  [.word [.inr .userName, .inl ':', .inr .userName],
    .word ((lit "/home/").map .inl ++ [.inr .userName])]

theorem ordinary_owner {username : Str} (h : PlainWord username) :
    ∀ c ∈ username ++ [':'] ++ username, special c = false :=
  List.forall_mem_append.mpr
    ⟨List.forall_mem_append.mpr ⟨h.ordinary, List.forall_mem_singleton.mpr rfl⟩, h.ordinary⟩

/-- The owner is one word, once the name is, where no bracket expression is closed in it. -/
theorem plainWord_owner {username : Str} (h : PlainWord username)
    (hunclosed : Bracket.outside.unclosed (username ++ [':'] ++ username) = true) :
    PlainWord (username ++ [':'] ++ username) := by
  refine ⟨by simp, ordinary_owner h, ?_, hunclosed⟩
  rw [List.append_assoc, List.head?_append_of_ne_nil _ h.ne_nil]
  exact h.head

theorem plainWord_owner_of_alphanumeric {username : Str} (h : Alphanumeric username) :
    PlainWord (username ++ [':'] ++ username) := by
  have hopen : '[' ∉ username := fun hmem => absurd (h.2 _ hmem) (by decide)
  exact plainWord_owner h.plainWord (Bracket.unclosed_of_not_mem (by simp [hopen]))

/-- **The owner of the home directory** is the name twice, in one word. -/
theorem setupCmd_keeps_iff (hmountpoint : PlainText mountpoint) (h : PlainWord (σ .userName)) :
    Keeps (fun σ => [archChrootChecked (setupCmd (σ .userName)) mountpoint]) σ ↔
      PlainWord (σ .userName ++ [':'] ++ σ .userName) := by
  have hchown : Whole (lit "chown -R") := PlainText.whole (by rw [lit_ofList]; decide)
  obtain ⟨tokens, htokens⟩ := (whole_archChroot hmountpoint).append_blank hchown
  have hline (username : Str) : archChrootChecked (setupCmd username) mountpoint =
      (lit "arch-chroot " ++ mountpoint ++ ' ' :: lit "chown -R") ++
        ' ' :: ((username ++ [':'] ++ username) ++ ' ' :: ((lit "/home/" ++ username) ++
          ' ' :: '2' :: '>' :: lit ">/tmp/cachyos-install.log 1>/dev/null")) := by
    simp [archChrootChecked_eq, setupCmd, lit_eq]
  have hread (username : Str) (h : PlainWord username)
      (howner : PlainWord (username ++ [':'] ++ username)) :
      parse (archChrootChecked (setupCmd username) mountpoint) =
        some (tokens ++ [.word (username ++ [':'] ++ username), .word (lit "/home/" ++ username)] ++
          logTokens) := by
    have hhome : PlainWord (lit "/home/" ++ username) := by
      refine PlainWord.append (by rw [lit_ofList]; decide) h.ordinary ?_
      rw [Bracket.after_of_not_mem (by rw [lit_ofList]; decide)]
      exact h.unclosed
    rw [hline, htokens, parse_plainWord howner, parse_plainWord hhome, parse_log]
    simp
  have hfill (σ : Secret → Str) :
      (tokens.map Shape.ofToken ++ homeShape ++ logTokens.map Shape.ofToken).map (Shape.fill σ) =
        tokens ++ [.word (σ .userName ++ [':'] ++ σ .userName),
          .word (lit "/home/" ++ σ .userName)] ++ logTokens := by
    rw [List.map_append, List.map_append, Shape.map_fill_ofToken, Shape.map_fill_ofToken]
    simp [homeShape, Shape.fill, Shape.fillPiece, lit_eq]
  refine (keeps_iff (tokens.map Shape.ofToken ++ homeShape ++ logTokens.map Shape.ofToken)
    fun σ' hσ' => ?_).trans ?_
  · rw [hread _ (hσ' .userName).plainWord (plainWord_owner_of_alphanumeric (hσ' .userName)), hfill]
  rw [hfill]
  constructor
  · intro hparse
    rw [hline, htokens] at hparse
    obtain ⟨tail, htail, -⟩ := Option.map_eq_some_iff.mp hparse
    exact plainWord_owner h (unclosed_of_parse (ordinary_owner h) htail)
  · exact hread _ h

/-- `useradd` with a shell or without. -/
theorem userCmd_keeps_iff {userShell : Str} (hmountpoint : PlainText mountpoint)
    (hshell : PlainText userShell) :
    Keeps (fun σ => [archChrootChecked (userCmd (σ .userName) userShell) mountpoint]) σ ↔
      PlainWord (σ .userName) := by
  by_cases hempty : userShell.isEmpty = true
  · have hcmd (username : Str) : userCmd username userShell =
        lit "useradd -m -U" ++ [' '] ++ username := by
      simp [userCmd, hempty, lit_eq]
    simp only [hcmd]
    exact archChrootChecked_keeps_iff .userName hmountpoint (PlainText.whole (by rw [lit_ofList]; decide))
  · have hcmd (username : Str) : userCmd username userShell =
        (lit "useradd -m -U -s " ++ userShell) ++ [' '] ++ username := by
      simp [userCmd, hempty]
    simp only [hcmd]
    exact archChrootChecked_keeps_iff .userName hmountpoint
      (PlainText.whole (PlainText.append (by rw [lit_ofList]; decide) hshell))

theorem groupsSetCmd_keeps_iff {defaultGroups : List Str} (hmountpoint : PlainText mountpoint)
    (hgroups : ∀ group ∈ defaultGroups, PlainText group) :
    Keeps (fun σ => [archChrootChecked (groupsSetCmd defaultGroups (σ .userName)) mountpoint]) σ ↔
      PlainWord (σ .userName) := by
  have hjoin : PlainText (join defaultGroups ',') := by
    rw [join_eq]
    exact PlainText.intercalate (by decide) hgroups
  have hcmd (username : Str) : groupsSetCmd defaultGroups username =
      (lit "usermod -aG " ++ join defaultGroups ',') ++ [' '] ++ username := rfl
  simp only [hcmd]
  exact archChrootChecked_keeps_iff .userName hmountpoint
    (PlainText.whole (PlainText.append (by rw [lit_ofList]; decide) hjoin))

/-- The groups are given by the program. -/
theorem createGroup_keeps {defaultGroups : List Str} (hmountpoint : PlainText mountpoint)
    (hgroups : ∀ group ∈ defaultGroups, PlainText group) :
    Keeps (fun _ => defaultGroups.map (createGroup · mountpoint)) σ := by
  induction defaultGroups with
  | nil => exact .nil
  | cons group defaultGroups ih =>
    have hgroup := hgroups group List.mem_cons_self
    have hfirst : Keeps (fun _ => [createGroup group mountpoint]) σ :=
      archChrootChecked_keeps hmountpoint
        (PlainText.whole (PlainText.append (by rw [lit_ofList]; decide) hgroup))
    exact hfirst.append (ih fun group hgroup => hgroups group (List.mem_cons_of_mem _ hgroup))

theorem echo_eq (passphrase cmd : Str) :
    lit "echo '" ++ passphrase ++ lit "' | " ++ cmd =
      lit "echo" ++ ' ' :: ('\x27' :: passphrase ++ '\x27' :: ' ' :: ('|' :: ' ' :: cmd)) := by
  simp [lit_eq]

theorem parse_pipe (cmd : Str) :
    parse ('|' :: ' ' :: cmd) = (parse cmd).map ([.operator ['|']] ++ ·) :=
  @parse_append_blank ['|'] cmd ⟨[], .operator ['|'], .plain⟩ rfl rfl

/-- How a passphrase is read that is piped to a command, when more of the command is read than would
be left for an open quotation. -/
theorem parse_echo_iff {passphrase mid rest : Str} {tail : List Token} (hmid : PlainText mid)
    (hsize : rest.length < (tail.map Token.size).sum) :
    parse (lit "echo '" ++ passphrase ++ lit "' | " ++ (mid ++ rest)) =
        some ([.word (lit "echo")] ++ .word passphrase :: .operator ['|'] :: tail) ↔
      Quotable passphrase ∧ parse (mid ++ rest) = some tail := by
  have hcalm : ∀ c ∈ '|' :: ' ' :: mid, calm c = true := by
    intro c hc
    rcases List.mem_cons.mp hc with rfl | hc
    · decide
    · rcases List.mem_cons.mp hc with rfl | hc
      · decide
      · exact hmid.calm c hc
  have hpipe : parse (('|' :: ' ' :: mid) ++ rest) = some (.operator ['|'] :: tail) ↔
      parse (mid ++ rest) = some tail := by
    rw [List.cons_append, List.cons_append, parse_pipe]
    exact @map_append_eq_some _ [.operator ['|']] tail
  rw [echo_eq, parse_plainWord (by rw [lit_ofList]; decide), map_append_eq_some, ← hpipe]
  refine parse_quoted_iff hcalm ?_
  simpa [Token.size] using hsize

/-- What throws away the output of `cryptsetup`. -/
def nullTokens : List Token := [.operator ['&'], .operator ['>'], .word (lit "/dev/null")]

theorem parse_null : parse ('&' :: lit ">/dev/null") = some nullTokens := by
  unfold nullTokens
  repeat rw [lit_ofList]
  decide +kernel

/-- The tokens of a passphrase that is piped to a command. -/
def pipeShape (i : Secret) (tokens : List Token) : List (Shape Secret) :=
  .ofToken (.word (lit "echo")) :: .hole i :: .operator ['|'] :: tokens.map .ofToken

theorem pipeShape_fill (i : Secret) (tokens : List Token) (σ : Secret → Str) :
    (pipeShape i tokens).map (Shape.fill σ) =
      .word (lit "echo") :: .word (σ i) :: .operator ['|'] :: tokens := by
  rw [pipeShape, List.map_cons, List.map_cons, List.map_cons, Shape.fill_ofToken, Shape.fill_hole,
    Shape.map_fill_ofToken]
  rfl

/-- **A command with a passphrase that is piped to it**: when it is read as meant, and the passphrase
is piped as one line. -/
theorem piped_keeps_iff {line : Str → Str} {tokens : List Token} {i : Secret} {echo : Echo}
    (hread : ∀ passphrase, parse (line passphrase) =
      some (.word (lit "echo") :: .word passphrase :: .operator ['|'] :: tokens) ↔
        Quotable passphrase) :
    Keeps (fun σ => [line (σ i)]) σ ∧ echo.PipesLine (line (σ i)) (σ i) ↔
      Quotable (σ i) ∧ echo.WritesLine (σ i) := by
  have hkeeps : Keeps (fun σ => [line (σ i)]) σ ↔ Quotable (σ i) :=
    keeps_iff_of_fill (pipeShape i tokens) (pipeShape_fill i tokens) (fun σ => hread (σ i))
      fun σ hσ => (hσ i).plainWord.quotable
  rw [hkeeps]
  refine and_congr_right fun hquotable => ?_
  have hparse := (hread _).mpr hquotable
  rw [lit_eq] at hparse
  exact Echo.pipesLine_iff hparse

theorem parse_luks1Format {additionalFlags : Str} (hpartition : PlainText partition)
    (hflags : PlainText additionalFlags) : ∃ tokens, ∀ passphrase,
      parse (luks1Format passphrase partition additionalFlags) =
        some (.word (lit "echo") :: .word passphrase :: .operator ['|'] :: tokens) ↔
      Quotable passphrase := by
  have hargs : PlainText (additionalFlags ++ lit " --type luks1 luksFormat " ++ partition) :=
    (hflags.append (by rw [lit_ofList]; decide)).append hpartition
  obtain ⟨tokens, htokens⟩ := hargs.whole
  have hmid : PlainText (lit "cryptsetup -q " ++
      (additionalFlags ++ lit " --type luks1 luksFormat " ++ partition) ++ [' ']) :=
    (PlainText.append (by rw [lit_ofList]; decide) hargs).append (by decide)
  have htail : parse (lit "cryptsetup -q " ++
      (additionalFlags ++ lit " --type luks1 luksFormat " ++ partition) ++ [' '] ++
      '&' :: lit ">/dev/null") =
        some ([.word (lit "cryptsetup"), .word (lit "-q")] ++ tokens ++ nullTokens) := by
    have hcmd : lit "cryptsetup -q " = lit "cryptsetup" ++ ' ' :: (lit "-q" ++ [' ']) := by
      simp [lit_eq]
    rw [hcmd]
    simp only [List.append_assoc, List.cons_append, List.nil_append] at htokens ⊢
    rw [parse_plainWord (by rw [lit_ofList]; decide), parse_plainWord (by rw [lit_ofList]; decide),
      htokens, parse_null]
    rfl
  refine ⟨[.word (lit "cryptsetup"), .word (lit "-q")] ++ tokens ++ nullTokens, fun passphrase => ?_⟩
  have hline : luks1Format passphrase partition additionalFlags =
      lit "echo '" ++ passphrase ++ lit "' | " ++ (lit "cryptsetup -q " ++
        (additionalFlags ++ lit " --type luks1 luksFormat " ++ partition) ++ [' '] ++
        '&' :: lit ">/dev/null") := by
    simp [luks1Format, lit_eq]
  rw [hline]
  refine (parse_echo_iff hmid ?_).trans (and_iff_left htail)
  simp [Token.size, nullTokens, lit_eq]
  omega

/-- The tokens of `luks1_open`, with some more arguments. -/
def openShape (args : List Token) : List (Shape Secret) :=
  .ofToken (.word (lit "echo")) :: .hole .luksPassphrase :: .operator ['|'] ::
    (([Token.word (lit "cryptsetup"), Token.word (lit "open")] ++ args).map .ofToken ++
      .hole .luksName :: nullTokens.map .ofToken)

theorem openShape_fill (args : List Token) (σ : Secret → Str) :
    (openShape args).map (Shape.fill σ) =
      .word (lit "echo") :: .word (σ .luksPassphrase) :: .operator ['|'] ::
        ([.word (lit "cryptsetup"), .word (lit "open")] ++ args ++
          .word (σ .luksName) :: nullTokens) := by
  rw [openShape, List.map_cons, List.map_cons, List.map_cons, List.map_append,
    Shape.map_fill_ofToken, List.map_cons, Shape.fill_hole, Shape.fill_hole, Shape.fill_ofToken,
    Shape.map_fill_ofToken]
  rfl

/-- The passphrase is quoted, and read apart from the name. -/
theorem parse_luks1Open (hpartition : PlainText partition) : ∃ tokens, ∀ passphrase luksName,
    parse (luks1Open passphrase partition luksName) =
        some (.word (lit "echo") :: .word passphrase :: .operator ['|'] ::
          ([.word (lit "cryptsetup"), .word (lit "open")] ++ tokens ++
            .word luksName :: nullTokens)) ↔
      Quotable passphrase ∧ PlainWord luksName := by
  have hargs : PlainText (lit "--type luks1 " ++ partition) :=
    PlainText.append (by rw [lit_ofList]; decide) hpartition
  obtain ⟨tokens, htokens⟩ := hargs.whole
  have hmid : PlainText (lit "cryptsetup open " ++ (lit "--type luks1 " ++ partition) ++ [' ']) :=
    (PlainText.append (by rw [lit_ofList]; decide) hargs).append (by decide)
  have hcmd : lit "cryptsetup open " = lit "cryptsetup" ++ ' ' :: (lit "open" ++ [' ']) := by
    simp [lit_eq]
  have htail (name : Str) :
      parse (lit "cryptsetup open " ++ (lit "--type luks1 " ++ partition) ++ [' '] ++
          (name ++ ' ' :: '&' :: lit ">/dev/null")) =
        some ([.word (lit "cryptsetup"), .word (lit "open")] ++ tokens ++ .word name :: nullTokens) ↔
      PlainWord name := by
    rw [hcmd]
    simp only [List.append_assoc, List.cons_append, List.nil_append] at htokens ⊢
    rw [parse_plainWord (by rw [lit_ofList]; decide), parse_plainWord (by rw [lit_ofList]; decide),
      htokens, Option.map_map, Option.map_map]
    refine Iff.trans ?_
      (parse_before_operator_iff rfl parse_null (by rw [lit_ofList]; decide) (by rw [lit_ofList]; decide +kernel))
    simp [Option.map_eq_some_iff]
  refine ⟨tokens, fun passphrase luksName => ?_⟩
  have hline : luks1Open passphrase partition luksName =
      lit "echo '" ++ passphrase ++ lit "' | " ++ (lit "cryptsetup open " ++
        (lit "--type luks1 " ++ partition) ++ [' '] ++
        (luksName ++ ' ' :: '&' :: lit ">/dev/null")) := by
    simp [luks1Open, lit_eq]
  rw [hline]
  refine (parse_echo_iff hmid ?_).trans (and_congr_right fun _ => htail luksName)
  simp [Token.size, nullTokens, lit_eq]
  omega

theorem luks1Open_keeps_iff {echo : Echo} (hpartition : PlainText partition) :
    Keeps (fun σ => [luks1Open (σ .luksPassphrase) partition (σ .luksName)]) σ ∧
        echo.PipesLine (luks1Open (σ .luksPassphrase) partition (σ .luksName)) (σ .luksPassphrase) ↔
      (Quotable (σ .luksPassphrase) ∧ PlainWord (σ .luksName)) ∧
        echo.WritesLine (σ .luksPassphrase) := by
  obtain ⟨tokens, hread⟩ := parse_luks1Open hpartition
  have hkeeps : Keeps (fun σ => [luks1Open (σ .luksPassphrase) partition (σ .luksName)]) σ ↔
      Quotable (σ .luksPassphrase) ∧ PlainWord (σ .luksName) := by
    refine keeps_iff_of_fill (openShape tokens) (openShape_fill tokens) (fun σ => hread _ _) ?_
    intro σ hσ
    exact ⟨(hσ .luksPassphrase).plainWord.quotable, (hσ .luksName).plainWord⟩
  rw [hkeeps]
  refine and_congr_right fun hsafe => ?_
  have hparse := (hread _ _).mpr hsafe
  rw [lit_eq] at hparse
  exact Echo.pipesLine_iff hparse

theorem parse_encryptedZpool {devicePath poolName poolOptions : Str}
    (hdevice : Quotable devicePath) (hpool : Quotable poolName) (hoptions : PlainText poolOptions) :
    ∃ tokens, ∀ passphrase, parse (zfsCreateZpool devicePath poolName poolOptions (some passphrase)) =
      some (.word (lit "echo") :: .word passphrase :: .operator ['|'] :: tokens) ↔
        Quotable passphrase := by
  have hfirst : PlainText (lit "zpool create " ++ poolOptions ++
      lit "-O encryption=aes-256-gcm -O") :=
    (PlainText.append (by rw [lit_ofList]; decide) hoptions).append (by rw [lit_ofList]; decide)
  have hlast : PlainWord (lit "keyformat=passphrase") := by rw [lit_ofList]; decide
  have hmid : PlainText (lit "zpool create " ++ poolOptions ++
      lit "-O encryption=aes-256-gcm -O keyformat=passphrase") :=
    (PlainText.append (by rw [lit_ofList]; decide) hoptions).append (by rw [lit_ofList]; decide)
  have hsplit : lit "zpool create " ++ poolOptions ++
      lit "-O encryption=aes-256-gcm -O keyformat=passphrase" = (lit "zpool create " ++
        poolOptions ++ lit "-O encryption=aes-256-gcm -O") ++ ' ' :: lit "keyformat=passphrase" := by
    simp [lit_eq]
  have htail : parse (lit "zpool create " ++ poolOptions ++
      lit "-O encryption=aes-256-gcm -O keyformat=passphrase" ++ ('\x27' :: poolName ++
        '\x27' :: ' ' :: ('\x27' :: devicePath ++
          '\x27' :: ' ' :: '2' :: '>' :: lit ">/tmp/cachyos-install.log"))) =
      some ((words blank (lit "zpool create " ++ poolOptions ++
        lit "-O encryption=aes-256-gcm -O")).map .word ++
          .word (lit "keyformat=passphrase" ++ poolName) :: .word devicePath :: errorTokens) := by
    rw [hsplit, List.append_assoc, List.cons_append, hfirst.parse_words, parse_glued hlast hpool,
      parse_quoted hdevice, parse_errors]
    rfl
  refine ⟨(words blank (lit "zpool create " ++ poolOptions ++
      lit "-O encryption=aes-256-gcm -O")).map .word ++
        .word (lit "keyformat=passphrase" ++ poolName) :: .word devicePath :: errorTokens,
    fun passphrase => ?_⟩
  have hline : zfsCreateZpool devicePath poolName poolOptions (some passphrase) =
      lit "echo '" ++ passphrase ++ lit "' | " ++ (lit "zpool create " ++ poolOptions ++
        lit "-O encryption=aes-256-gcm -O keyformat=passphrase" ++ ('\x27' :: poolName ++
          '\x27' :: ' ' :: ('\x27' :: devicePath ++
            '\x27' :: ' ' :: '2' :: '>' :: lit ">/tmp/cachyos-install.log"))) := by
    simp [zfsCreateZpool, lit_eq]
  rw [hline]
  refine (parse_echo_iff hmid ?_).trans (and_iff_left htail)
  simp [Token.size, errorTokens, lit_eq]
  omega

end Lines

/-! ## For which texts the commands are those that were meant -/

theorem setUserPassword_keeps_iff {encryptedPasswd mountpoint : Str} {σ : Secret → Str}
    (hmountpoint : PlainText mountpoint)
    (hencrypted : PlainWord (σ .password) → Quotable encryptedPasswd) :
    Keeps (fun σ => setUserPassword (.allSucceed encryptedPasswd) (σ .userName) (σ .password)
        mountpoint) σ ↔ PlainWord (σ .password) ∧ PlainWord (σ .userName) := by
  constructor
  · intro h
    have hpassword : PlainWord (σ .password) := opensslPasswd_keeps_iff.mp (h.take 1)
    exact ⟨hpassword, (passwordSetCmd_keeps_iff hmountpoint (hencrypted hpassword)).mp (h.drop 1)⟩
  · rintro ⟨hpassword, hname⟩
    exact (opensslPasswd_keeps_iff.mpr hpassword).append
      ((passwordSetCmd_keeps_iff hmountpoint (hencrypted hpassword)).mpr hname)

/-- The name has to be one word, and so has the owner of the home directory. -/
theorem createUserCmds_keeps {shell sudoersGroup mountpoint : Str} {defaultGroups : List Str}
    {σ : Secret → Str} (hmountpoint : PlainText mountpoint) (hshell : PlainText shell)
    (hgroups : ∀ group ∈ defaultGroups, PlainText group) (h : PlainWord (σ .userName))
    (howner : PlainWord (σ .userName ++ [':'] ++ σ .userName)) :
    Keeps (fun σ => createUserCmds ⟨σ .userName, σ .password, shell, sudoersGroup⟩ defaultGroups
      mountpoint) σ :=
  (createGroup_keeps hmountpoint hgroups).append
    (((userCmd_keeps_iff hmountpoint hshell).mpr h).append
      (((groupsSetCmd_keeps_iff hmountpoint hgroups).mpr h).append
        ((setupCmd_keeps_iff hmountpoint h).mpr howner)))

theorem createNewUser_keeps_iff {encryptedPasswd shell sudoersGroup mountpoint : Str}
    {defaultGroups : List Str} {σ : Secret → Str} (hmountpoint : PlainText mountpoint)
    (hshell : PlainText shell) (hgroups : ∀ group ∈ defaultGroups, PlainText group)
    (hsudoers : sudoersGroup = [] ∨ sudoersGroup ∈ defaultGroups)
    (hencrypted : PlainWord (σ .password) → Quotable encryptedPasswd) :
    Keeps (fun σ => createNewUser (.allSucceed encryptedPasswd)
        ⟨σ .userName, σ .password, shell, sudoersGroup⟩ defaultGroups mountpoint) σ ↔
      (PlainWord (σ .password) ∧ PlainWord (σ .userName)) ∧
        PlainWord (σ .userName ++ [':'] ++ σ .userName) := by
  have hgiven : (!sudoersGroup.isEmpty && !defaultGroups.contains sudoersGroup) = false := by
    rcases hsudoers with rfl | hmem
    · rfl
    · simp [hmem]
  have hlines (σ : Secret → Str) : createNewUser (.allSucceed encryptedPasswd)
      ⟨σ .userName, σ .password, shell, sudoersGroup⟩ defaultGroups mountpoint =
        createUserCmds ⟨σ .userName, σ .password, shell, sudoersGroup⟩ defaultGroups mountpoint ++
          setUserPassword (.allSucceed encryptedPasswd) (σ .userName) (σ .password) mountpoint := by
    simp only [createNewUser, hgiven]
    simp [Replies.allSucceed]
  have hlength (σ : Secret → Str) :
      (createUserCmds ⟨σ .userName, σ .password, shell, sudoersGroup⟩ defaultGroups
        mountpoint).length = defaultGroups.length + 3 := by
    simp [createUserCmds]
  have hlast (σ : Secret → Str) :
      (createUserCmds ⟨σ .userName, σ .password, shell, sudoersGroup⟩ defaultGroups
        mountpoint).drop (defaultGroups.length + 2) =
          [archChrootChecked (setupCmd (σ .userName)) mountpoint] := by
    simp [createUserCmds, List.drop_append]
  simp only [hlines]
  constructor
  · intro h
    have hset := h.drop (defaultGroups.length + 3)
    simp only [List.drop_left' (hlength _)] at hset
    have hwords := (setUserPassword_keeps_iff hmountpoint hencrypted).mp hset
    have howner := (h.take (defaultGroups.length + 3)).drop (defaultGroups.length + 2)
    simp only [List.take_left' (hlength _), hlast] at howner
    exact ⟨hwords, (setupCmd_keeps_iff hmountpoint hwords.2).mp howner⟩
  · rintro ⟨⟨hpassword, hname⟩, howner⟩
    exact (createUserCmds_keeps hmountpoint hshell hgroups hname howner).append
      ((setUserPassword_keeps_iff hmountpoint hencrypted).mpr ⟨hpassword, hname⟩)

namespace SecretCall

/-- What the program chooses itself needs no quotation, `create_new_user` is given its groups, and
once the password is one word, `openssl passwd` prints a text without quotes. -/
def Proper (encryptedPasswd : Str) (σ : Secret → Str) : SecretCall → Prop
  | setUserPassword mountpoint =>
    PlainText mountpoint ∧ (PlainWord (σ .password) → Quotable encryptedPasswd)
  | createNewUser shell sudoersGroup defaultGroups mountpoint =>
    PlainText mountpoint ∧ PlainText shell ∧ (∀ group ∈ defaultGroups, PlainText group) ∧
      (sudoersGroup = [] ∨ sudoersGroup ∈ defaultGroups) ∧
      (PlainWord (σ .password) → Quotable encryptedPasswd)
  | luks1Open partition => PlainText partition
  | luks1Format partition additionalFlags => PlainText partition ∧ PlainText additionalFlags
  | zfsCreateZpool devicePath poolName poolOptions =>
    Quotable devicePath ∧ Quotable poolName ∧ PlainText poolOptions

/-- The passphrase that a call pipes to its command. -/
def passphrase : SecretCall → Option Secret
  | setUserPassword _ => none
  | createNewUser _ _ _ _ => none
  | luks1Open _ => some .luksPassphrase
  | luks1Format _ _ => some .luksPassphrase
  | zfsCreateZpool _ _ _ => some .zpoolPassphrase

/-- **The texts that are safe**: what is not quoted needs no quotation, and what is has no quote; a
passphrase is written as one line. The name of a new user is also the owner of the home directory. -/
def Safe (echo : Echo) (σ : Secret → Str) : SecretCall → Prop
  | setUserPassword _ => PlainWord (σ .password) ∧ PlainWord (σ .userName)
  | createNewUser _ _ _ _ => (PlainWord (σ .password) ∧ PlainWord (σ .userName)) ∧
      PlainWord (σ .userName ++ [':'] ++ σ .userName)
  | luks1Open _ => (Quotable (σ .luksPassphrase) ∧ PlainWord (σ .luksName)) ∧
      echo.WritesLine (σ .luksPassphrase)
  | luks1Format _ _ => Quotable (σ .luksPassphrase) ∧ echo.WritesLine (σ .luksPassphrase)
  | zfsCreateZpool _ _ _ => Quotable (σ .zpoolPassphrase) ∧ echo.WritesLine (σ .zpoolPassphrase)

/-- The commands are read as meant when every command succeeds, and a passphrase is piped as a single
line. -/
def CommandsKept (echo : Echo) (encryptedPasswd : Str) (σ : Secret → Str) (call : SecretCall) : Prop :=
  Keeps (call.lines (.allSucceed encryptedPasswd)) σ ∧
    ∀ i, call.passphrase = some i → ∀ line ∈ call.lines (.allSucceed encryptedPasswd) σ,
      echo.PipesLine line (σ i)

/-- **The commands are those that were meant** exactly when the texts are safe. -/
theorem keeps_iff_safe (call : SecretCall) (echo : Echo) (encryptedPasswd : Str) (σ : Secret → Str)
    (h : call.Proper encryptedPasswd σ) :
    call.CommandsKept echo encryptedPasswd σ ↔ call.Safe echo σ := by
  cases call with
  | setUserPassword mountpoint =>
    rw [CommandsKept, and_iff_left (by simp [passphrase])]
    exact setUserPassword_keeps_iff h.1 h.2
  | createNewUser shell sudoersGroup defaultGroups mountpoint =>
    obtain ⟨hmountpoint, hshell, hgroups, hsudoers, hencrypted⟩ := h
    rw [CommandsKept, and_iff_left (by simp [passphrase])]
    exact createNewUser_keeps_iff hmountpoint hshell hgroups hsudoers hencrypted
  | luks1Open partition =>
    simp only [CommandsKept, passphrase, lines, Option.some.injEq, forall_eq', List.mem_singleton,
      forall_eq]
    exact luks1Open_keeps_iff h
  | luks1Format partition additionalFlags =>
    obtain ⟨tokens, hread⟩ := parse_luks1Format h.1 h.2
    simp only [CommandsKept, passphrase, lines, Option.some.injEq, forall_eq', List.mem_singleton,
      forall_eq]
    exact piped_keeps_iff hread
  | zfsCreateZpool devicePath poolName poolOptions =>
    obtain ⟨hdevice, hpool, hoptions⟩ := h
    obtain ⟨tokens, hread⟩ := parse_encryptedZpool hdevice hpool hoptions
    simp only [CommandsKept, passphrase, lines, Option.some.injEq, forall_eq', List.mem_singleton,
      forall_eq]
    exact piped_keeps_iff hread

/-- A passphrase of two words, and the name of a mapping. -/
def twoWords : Secret → Str
  | .luksPassphrase => lit "correct horse"
  | _ => lit "cryptroot"

theorem keeps_iff_safe_twoWords :
    (luks1Open (lit "/dev/sda2")).CommandsKept .bash [] twoWords := by
  have hpartition : (luks1Open (lit "/dev/sda2")).Proper [] twoWords := by
    show PlainText (lit "/dev/sda2")
    rw [lit_ofList]
    decide
  refine (keeps_iff_safe (luks1Open (lit "/dev/sda2")) .bash [] twoWords hpartition).mpr ⟨⟨?_, ?_⟩, ?_⟩
  · show Quotable (lit "correct horse")
    rw [lit_ofList]
    decide
  · show PlainWord (lit "cryptroot")
    rw [lit_ofList]
    decide
  · show Echo.bash.WritesLine (lit "correct horse")
    rw [lit_ofList]
    decide

/-- A password with a command in it. -/
def withCommand : Secret → Str
  | .password => lit "secret;reboot"
  | _ => lit "user"

/-- The shell that is to encrypt the password runs the command. -/
theorem setUserPassword_withCommand :
    (setUserPassword (lit "/mnt")).Proper (lit "$1$salt$hash") withCommand ∧
      ¬(setUserPassword (lit "/mnt")).CommandsKept .bash (lit "$1$salt$hash") withCommand := by
  have hmountpoint : PlainText (lit "/mnt") := by rw [lit_ofList]; decide
  have hencrypted : Quotable (lit "$1$salt$hash") := by rw [lit_ofList]; decide
  refine ⟨⟨hmountpoint, fun _ => hencrypted⟩, fun h => ?_⟩
  have hpassword := ((setUserPassword_keeps_iff hmountpoint fun _ => hencrypted).mp h.1).1
  exact absurd hpassword (by rw [lit_ofList]; decide : ¬PlainWord (lit "secret;reboot"))

end SecretCall

end CliInstaller
