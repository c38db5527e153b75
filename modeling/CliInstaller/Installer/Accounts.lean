import CliInstaller.Cpp.Files
import CliInstaller.General.Commands
import CliInstaller.Installer.CommandWords

/-!
# Creating a user on the target

`create_new_user` runs `groupadd`, `useradd`, `usermod` and `chown` in the target, each as a line that
a shell reads, and then writes the sudoers file. What the lines do is told by the tools: a group that
is there already is no failure, but a user is created only with a group of its own, so a name that is
taken by a user or by a group, one of the default groups included, cannot be used.

Source: `gucc/src/user.cpp`, `gucc/src/io_utils.cpp`, `src/utils.cpp`.

## Main definitions

* `Accounts`: the groups and users of the target, and the operations on them
* `AccountTools`: what the tools do, in terms of the tokens of a line
* `User.createNewUser`: the function, on any target and with any way to run commands
* `Creatable`, `Target.created`: when the user is created, and what is there then

## Main results

* `createNewUser_iff`: when it returns true, and what it leaves then
* `createNewUser_keeps`: what it leaves however it ends
-/

namespace CliInstaller

open Shell Splitting Commands

/-! ## The accounts of the target -/

/-- A user. -/
structure Account where
  name : Str
  /-- the shell that was asked for, or nothing -/
  shell : Str
  password : Option Str
  /-- the groups besides its own -/
  groups : List Str
  deriving DecidableEq, Repr

/-- The groups, the users, and the users whose home directory is there. -/
structure Accounts where
  groups : List Str
  users : List Account
  homes : List Str
  deriving DecidableEq, Repr

/-- The groups that are not there yet join the others. -/
def addGroups (groups more : List Str) : List Str :=
  more.foldl (fun groups group => if group ∈ groups then groups else groups ++ [group]) groups

namespace Accounts

/-- The names of the users. -/
def names (a : Accounts) : List Str := a.users.map Account.name

/-- A group, which may be there already. -/
def addGroup (group : Str) (a : Accounts) : Accounts :=
  { a with groups := addGroups a.groups [group] }

/-- A user with a group and a home directory of its own. -/
def addUser (name shell : Str) (a : Accounts) : Option Accounts :=
  if name ∈ a.names ∨ name ∈ a.groups then none
  else some ⟨a.groups ++ [name], a.users ++ [⟨name, shell, none, []⟩], a.homes ++ [name]⟩

/-- A user with this name is changed. -/
def change (name : Str) (f : Account → Account) (a : Accounts) : Accounts :=
  { a with users := a.users.map fun user => if user.name = name then f user else user }

/-- A user joins groups, which are all there. -/
def joinGroups (groups : List Str) (name : Str) (a : Accounts) : Option Accounts :=
  if name ∈ a.names ∧ ∀ group ∈ groups, group ∈ a.groups then
    some (a.change name fun user => { user with groups := addGroups user.groups groups })
  else none

/-- A home directory is given to its user and the group of its name. -/
def ownHome (name : Str) (a : Accounts) : Option Accounts :=
  if name ∈ a.names ∧ name ∈ a.groups ∧ name ∈ a.homes then some a else none

/-- The password of a user is set. -/
def setPassword (password name : Str) (a : Accounts) : Option Accounts :=
  if name ∈ a.names then some (a.change name fun user => { user with password := some password })
  else none

end Accounts

/-- The target: its accounts, and its files besides the log and what is in a home directory. -/
structure Target where
  accounts : Accounts
  files : FileSystem

namespace Target

/-- An operation on the accounts. -/
def onAccounts (op : Accounts → Option Accounts) (t : Target) : Option Target :=
  (op t.accounts).map fun accounts => { t with accounts }

end Target

/-! ## The tools -/

/-- The tokens of a command that `arch-chroot` runs. -/
def chrootTokens (mountpoint : Str) (args : List Str) : List Token :=
  [.word (lit "arch-chroot"), .word mountpoint] ++ args.map .word ++ logTokens

/-- The shells that `useradd` accepts. -/
def validShell (shell : Str) : Bool :=
  (shell.head? = some '/' || shell.head? = some '*') && !shell.contains ':' && !shell.contains '\n'

/-- **What the tools do** in the target, for the names that they accept: a line with these tokens
carries out this operation. -/
structure AccountTools (exec : Exec Str Target) (validName : Str → Bool) (mountpoint : Str) : Prop where
  groupadd : ∀ line group,
    parse line = some (chrootTokens mountpoint [lit "groupadd", lit "--force", group]) →
      CarriesOut exec line (Target.onAccounts fun a =>
        if validName group then some (a.addGroup group) else none)
  useradd : ∀ line name,
    parse line = some (chrootTokens mountpoint [lit "useradd", lit "-m", lit "-U", name]) →
      CarriesOut exec line (Target.onAccounts fun a =>
        if validName name then a.addUser name [] else none)
  useraddShell : ∀ line shell name,
    parse line = some (chrootTokens mountpoint
      [lit "useradd", lit "-m", lit "-U", lit "-s", shell, name]) →
      CarriesOut exec line (Target.onAccounts fun a =>
        if validName name ∧ validShell shell then a.addUser name shell else none)
  /-- the groups are separated by commas -/
  usermodGroups : ∀ line groups name, groups ≠ [] → (∀ group ∈ groups, ',' ∉ group) →
    parse line = some (chrootTokens mountpoint
      [lit "usermod", lit "-aG", [','].intercalate groups, name]) →
      CarriesOut exec line (Target.onAccounts (Accounts.joinGroups groups name))
  /-- the option has an argument, and a user must be named -/
  usermodUsage : ∀ line name,
    parse line = some (chrootTokens mountpoint [lit "usermod", lit "-aG", name]) →
      CarriesOut exec line fun _ => none
  chown : ∀ line name, ':' ∉ name →
    parse line = some (chrootTokens mountpoint
      [lit "chown", lit "-R", name ++ [':'] ++ name, lit "/home/" ++ name]) →
      CarriesOut exec line (Target.onAccounts (Accounts.ownHome name))
  usermodPassword : ∀ line password name,
    parse line = some (chrootTokens mountpoint [lit "usermod", lit "-p", password, name]) →
      CarriesOut exec line (Target.onAccounts (Accounts.setPassword password name))
  /-- a name that is accepted is no list and no pair -/
  separators : ∀ name, validName name = true → ',' ∉ name ∧ ':' ∉ name

/-- Tools that run these lines in the same way do the same. -/
theorem AccountTools.of_eq {exec exec' : Exec Str Target} {validName : Str → Bool} {mountpoint : Str}
    (h : AccountTools exec validName mountpoint)
    (heq : ∀ line args, parse line = some (chrootTokens mountpoint args) → exec' line = exec line) :
    AccountTools exec' validName mountpoint where
  groupadd line group hline t := by rw [heq line _ hline, h.groupadd line group hline]
  useradd line name hline t := by rw [heq line _ hline, h.useradd line name hline]
  useraddShell line shell name hline t := by
    rw [heq line _ hline, h.useraddShell line shell name hline]
  usermodGroups line groups name hne hgroups hline t := by
    rw [heq line _ hline, h.usermodGroups line groups name hne hgroups hline]
  usermodUsage line name hline t := by rw [heq line _ hline, h.usermodUsage line name hline]
  chown line name hname hline t := by rw [heq line _ hline, h.chown line name hname hline]
  usermodPassword line password name hline t := by
    rw [heq line _ hline, h.usermodPassword line password name hline]
  separators := h.separators

/-! ## Tools that do what they are said to do -/

/-- The command that `arch-chroot` runs, if the tokens are one. -/
def chrootArgs (mountpoint : Str) (tokens : List Token) : Option (List Str) :=
  match leadingWords tokens with
  | (chroot :: root :: args, log) =>
    if chroot = lit "arch-chroot" ∧ root = mountpoint ∧ log = logTokens then some args else none
  | _ => none

theorem chrootArgs_chrootTokens (mountpoint : Str) (args : List Str) :
    chrootArgs mountpoint (chrootTokens mountpoint args) = some args := by
  have hwords : leadingWords (chrootTokens mountpoint args) =
      (lit "arch-chroot" :: mountpoint :: args, logTokens) :=
    leadingWords_append (lit "arch-chroot" :: mountpoint :: args) (fun _ => Token.noConfusion) _
  rw [chrootArgs, hwords]
  simp

/-- What a command does to the accounts. -/
def accountCommand (validName : Str → Bool) : List Str → Accounts → Option Accounts
  | [program, option, name], a =>
    if program = lit "groupadd" ∧ option = lit "--force" then
      if validName name then some (a.addGroup name) else none
    else none
  | [program, option, arg, name], a =>
    if program = lit "useradd" ∧ option = lit "-m" ∧ arg = lit "-U" then
      if validName name then a.addUser name [] else none
    else if program = lit "usermod" ∧ option = lit "-aG" then a.joinGroups (arg.splitOn ',') name
    else if program = lit "usermod" ∧ option = lit "-p" then a.setPassword arg name
    else if program = lit "chown" ∧ option = lit "-R" then
      if arg = name.drop 6 ++ [':'] ++ name.drop 6 then a.ownHome (name.drop 6) else none
    else none
  | [program, home, group, option, shell, name], a =>
    if program = lit "useradd" ∧ home = lit "-m" ∧ group = lit "-U" ∧ option = lit "-s" then
      if validName name ∧ validShell shell then a.addUser name shell else none
    else none
  | _, _ => none

/-- A shell with these tools in the target. -/
def runAccountTools (validName : Str → Bool) (mountpoint line : Str) : Target → Bool × Target :=
  match (parse line).bind (chrootArgs mountpoint) with
  | some args => attempt (Target.onAccounts (accountCommand validName args))
  | none => fun t => (false, t)

theorem runAccountTools_of_parse {validName : Str → Bool} {mountpoint line : Str} {args : List Str}
    (h : parse line = some (chrootTokens mountpoint args)) {op : Accounts → Option Accounts}
    (hop : accountCommand validName args = op) :
    CarriesOut (runAccountTools validName mountpoint) line (Target.onAccounts op) := by
  intro t
  subst hop
  simp only [runAccountTools, h, Option.bind_some, chrootArgs_chrootTokens]

theorem usermod_ne_useradd : lit "usermod" ≠ lit "useradd" := by
  repeat rw [lit_ofList]
  decide

theorem usermod_ne_groupadd : lit "usermod" ≠ lit "groupadd" := by
  repeat rw [lit_ofList]
  decide

theorem chown_ne_useradd : lit "chown" ≠ lit "useradd" := by
  repeat rw [lit_ofList]
  decide

theorem chown_ne_usermod : lit "chown" ≠ lit "usermod" := by
  repeat rw [lit_ofList]
  decide

/-- **The tools do what they are said to do**, in this shell. -/
theorem accountTools {validName : Str → Bool} (mountpoint : Str)
    (hnames : ∀ name, validName name = true → ',' ∉ name ∧ ':' ∉ name) :
    AccountTools (runAccountTools validName mountpoint) validName mountpoint where
  groupadd line group h := runAccountTools_of_parse h <| by
    funext a
    simp [accountCommand]
  useradd line name h := runAccountTools_of_parse h <| by
    funext a
    simp [accountCommand]
  useraddShell line shell name h := runAccountTools_of_parse h <| by
    funext a
    simp [accountCommand]
  usermodGroups line groups name hne hgroups h := runAccountTools_of_parse h <| by
    funext a
    simp [accountCommand, usermod_ne_useradd, List.splitOn_intercalate ',' hgroups hne]
  usermodUsage line name h := by
    have hnone : accountCommand validName [lit "usermod", lit "-aG", name] = fun _ => none := by
      funext a
      simp [accountCommand, usermod_ne_groupadd]
    intro t
    rw [runAccountTools_of_parse h hnone]
    rfl
  chown line name hname h := runAccountTools_of_parse h <| by
    funext a
    have hhome : (lit "/home/" ++ name).drop 6 = name := by rw [lit_ofList]; rfl
    simp [accountCommand, chown_ne_useradd, chown_ne_usermod, hhome]
  usermodPassword line password name h := runAccountTools_of_parse h <| by
    funext a
    have hoption : lit "-p" ≠ lit "-aG" := by
      repeat rw [lit_ofList]
      decide
    simp [accountCommand, usermod_ne_useradd, hoption]
  separators := hnames

/-! ## The function -/

namespace User

/-- `user::set_user_password`: the output of the first command is the password that is set. -/
def setUserPassword (exec : Exec Str Target) (output : Str → Str)
    (username password mountpoint : Str) : Target → Bool × Target :=
  exec (archChrootChecked
    (passwordSetCmd (output (opensslPasswd password)) username) mountpoint)

def sudoersFilepath (mountpoint : Str) : Str := mountpoint ++ lit "/etc/sudoers.d/10-installer"

def sudoersLine (sudoersGroup : Str) : Str := lit "%" ++ sudoersGroup ++ lit " ALL=(ALL) ALL\n"

/-- The end of `create_new_user`; `setPermissions` says whether `fs::permissions` succeeds. -/
def setupSudoers (setPermissions : Str → Bool) (sudoersGroup mountpoint : Str) (t : Target) :
    Bool × Target :=
  if sudoersGroup.isEmpty then (true, t)
  else
    match createFileForOverwrite t.files (sudoersFilepath mountpoint) (sudoersLine sudoersGroup) with
    | (false, files) => (false, { t with files })
    | (true, files) => (setPermissions (sudoersFilepath mountpoint), { t with files })

/-- **`user::create_new_user`** -/
def createNewUser (exec : Exec Str Target) (output : Str → Str) (setPermissions : Str → Bool)
    (userInfo : UserInfo) (defaultGroups : List Str) (mountpoint : Str) (t : Target) :
    Bool × Target :=
  if !userInfo.sudoersGroup.isEmpty && !defaultGroups.contains userInfo.sudoersGroup then (false, t)
  else
    andThen (runAll exec (createUserCmds userInfo defaultGroups mountpoint))
      (andThen (setUserPassword exec output userInfo.username userInfo.password mountpoint)
        (setupSudoers setPermissions userInfo.sudoersGroup mountpoint)) t

end User

/-! ## How the lines are read -/

section Lines

variable {mountpoint name : Str}

/-- A command of plain words that `arch-chroot` runs. -/
theorem parse_chrootWords (hmountpoint : LiteralWord mountpoint) {args : List Str} (hne : args ≠ [])
    (hargs : ∀ arg ∈ args, PlainWord arg) :
    parse (archChrootChecked ([' '].intercalate args) mountpoint) =
      some (chrootTokens mountpoint args) := by
  have hline : archChrootChecked ([' '].intercalate args) mountpoint =
      lit "arch-chroot" ++ ' ' :: (mountpoint ++ ' ' :: ([' '].intercalate args ++
        ' ' :: '2' :: '>' :: lit ">/tmp/cachyos-install.log 1>/dev/null")) := by
    simp [archChrootChecked, lit_eq]
  rw [hline, parse_plainWord (by rw [lit_ofList]; decide), parse_plainWord hmountpoint.plainWord,
    parse_intercalate hne hargs, parse_log]
  simp [chrootTokens]

theorem parse_createGroup (hmountpoint : LiteralWord mountpoint) {group : Str}
    (hgroup : LiteralWord group) :
    parse (createGroup group mountpoint) =
      some (chrootTokens mountpoint [lit "groupadd", lit "--force", group]) := by
  have hcmd : lit "groupadd --force " ++ group =
      [' '].intercalate [lit "groupadd", lit "--force", group] := by
    simp [lit_eq, List.intercalate]
  rw [createGroup, hcmd]
  refine parse_chrootWords hmountpoint (List.cons_ne_nil _ _) ?_
  simp only [List.forall_mem_cons, hgroup.plainWord, List.not_mem_nil, false_implies, implies_true,
    and_true]
  repeat rw [lit_ofList]
  decide

theorem parse_userCmd (hmountpoint : LiteralWord mountpoint) (hname : LiteralWord name) {shell : Str}
    (hshell : Literal shell) :
    parse (archChrootChecked (userCmd name shell) mountpoint) =
      some (chrootTokens mountpoint (if shell = [] then [lit "useradd", lit "-m", lit "-U", name]
        else [lit "useradd", lit "-m", lit "-U", lit "-s", shell, name])) := by
  split_ifs with hempty
  · have hcmd : userCmd name shell = [' '].intercalate [lit "useradd", lit "-m", lit "-U", name] := by
      simp [userCmd, hempty, lit_eq, List.intercalate]
    rw [hcmd]
    refine parse_chrootWords hmountpoint (List.cons_ne_nil _ _) ?_
    simp only [List.forall_mem_cons, hname.plainWord, List.not_mem_nil, false_implies, implies_true,
      and_true]
    repeat rw [lit_ofList]
    decide
  · have hshell' : LiteralWord shell := ⟨hempty, hshell⟩
    have hcmd : userCmd name shell =
        [' '].intercalate [lit "useradd", lit "-m", lit "-U", lit "-s", shell, name] := by
      simp [userCmd, hempty, lit_eq, List.intercalate]
    rw [hcmd]
    refine parse_chrootWords hmountpoint (List.cons_ne_nil _ _) ?_
    simp only [List.forall_mem_cons, hname.plainWord, hshell'.plainWord, List.not_mem_nil,
      false_implies, implies_true, and_true]
    repeat rw [lit_ofList]
    decide

/-- The groups are one argument, if there are any. -/
theorem parse_groupsSetCmd (hmountpoint : LiteralWord mountpoint) (hname : LiteralWord name)
    {groups : List Str} (hgroups : ∀ group ∈ groups, LiteralWord group) :
    parse (archChrootChecked (groupsSetCmd groups name) mountpoint) =
      some (chrootTokens mountpoint (if groups = [] then [lit "usermod", lit "-aG", name]
        else [lit "usermod", lit "-aG", [','].intercalate groups, name])) := by
  have hjoin : PlainText ([','].intercalate groups) :=
    PlainText.intercalate (by decide) fun group hgroup => (hgroups group hgroup).2.plainText
  have hcmd : groupsSetCmd groups name =
      lit "usermod" ++ ' ' :: (lit "-aG" ++ ' ' :: ([','].intercalate groups ++ ' ' :: name)) := by
    simp [groupsSetCmd, join_eq, lit_eq]
  have hplain : PlainText (groupsSetCmd groups name) := by
    rw [groupsSetCmd, join_eq]
    refine PlainText.append (PlainText.append (PlainText.append ?_ hjoin) (by decide))
      hname.2.plainText
    rw [lit_ofList]
    decide
  have hwords : words blank (groupsSetCmd groups name) =
      [lit "usermod", lit "-aG"] ++ words blank ([','].intercalate groups) ++ [name] := by
    have husermod : words blank (lit "usermod") = [lit "usermod"] :=
      LiteralWord.words (by rw [lit_ofList]; decide)
    have hoption : words blank (lit "-aG") = [lit "-aG"] :=
      LiteralWord.words (by rw [lit_ofList]; decide)
    rw [hcmd, words_append_cons rfl, words_append_cons rfl, words_append_cons rfl, hname.words,
      husermod, hoption]
    rfl
  rw [parse_archChrootChecked hmountpoint hplain, hwords]
  split_ifs with hempty
  · rw [hempty, List.intercalate_nil, words_nil]
    simp [chrootTokens]
  · -- No group has a blank, and the first is not empty.
    have hword : LiteralWord ([','].intercalate groups) := by
      refine ⟨?_, Literal.intercalate (by decide) fun group hgroup => (hgroups group hgroup).2⟩
      obtain ⟨group, groups', rfl⟩ := List.exists_cons_of_ne_nil hempty
      rw [intercalate_cons_eq]
      exact List.append_ne_nil_of_left_ne_nil (hgroups group List.mem_cons_self).1 _
    rw [hword.words]
    simp [chrootTokens]

theorem parse_setupCmd (hmountpoint : LiteralWord mountpoint) (hname : LiteralWord name) :
    parse (archChrootChecked (setupCmd name) mountpoint) =
      some (chrootTokens mountpoint
        [lit "chown", lit "-R", name ++ [':'] ++ name, lit "/home/" ++ name]) := by
  have hcmd : setupCmd name =
      [' '].intercalate [lit "chown", lit "-R", name ++ [':'] ++ name, lit "/home/" ++ name] := by
    simp [setupCmd, lit_eq, List.intercalate]
  have howner : LiteralWord (name ++ [':'] ++ name) :=
    ⟨by simp [hname.1], (hname.2.append (by decide)).append hname.2⟩
  have hhome : LiteralWord (lit "/home/" ++ name) :=
    ⟨by simp [hname.1], Literal.append (by rw [lit_ofList]; decide) hname.2⟩
  rw [hcmd]
  refine parse_chrootWords hmountpoint (List.cons_ne_nil _ _) ?_
  simp only [List.forall_mem_cons, howner.plainWord, hhome.plainWord, List.not_mem_nil, false_implies,
    implies_true, and_true]
  repeat rw [lit_ofList]
  decide

theorem parse_passwordSetCmd (hmountpoint : LiteralWord mountpoint) (hname : LiteralWord name)
    {password : Str} (hpassword : Quotable password) :
    parse (archChrootChecked (passwordSetCmd password name) mountpoint) =
      some (chrootTokens mountpoint [lit "usermod", lit "-p", password, name]) := by
  have hline : archChrootChecked (passwordSetCmd password name) mountpoint =
      lit "arch-chroot" ++ ' ' :: (mountpoint ++ ' ' :: (lit "usermod" ++ ' ' :: (lit "-p" ++
        ' ' :: ('\x27' :: password ++ '\x27' :: ' ' :: (name ++
          ' ' :: '2' :: '>' :: lit ">/tmp/cachyos-install.log 1>/dev/null"))))) := by
    simp [archChrootChecked, passwordSetCmd, lit_eq]
  rw [hline, parse_plainWord (by rw [lit_ofList]; decide), parse_plainWord hmountpoint.plainWord,
    parse_plainWord (by rw [lit_ofList]; decide), parse_plainWord (by rw [lit_ofList]; decide),
    parse_quoted hpassword, parse_plainWord hname.plainWord, parse_log]
  rfl

end Lines

/-! ## What the operations leave -/

section Operations

variable {groups more : List Str} {group name : Str}

theorem mem_addGroups : group ∈ addGroups groups more ↔ group ∈ groups ∨ group ∈ more := by
  induction more generalizing groups with
  | nil => simp [addGroups]
  | cons first more ih =>
    have hstep : addGroups groups (first :: more) =
        addGroups (if first ∈ groups then groups else groups ++ [first]) more := rfl
    rw [hstep, ih]
    split_ifs with hfirst
    · constructor
      · exact fun h => h.imp_right (List.mem_cons_of_mem first)
      · rintro (h | h)
        · exact .inl h
        · rcases List.mem_cons.mp h with rfl | h
          · exact .inl hfirst
          · exact .inr h
    · simp [or_assoc]

/-- The groups that were there stay. -/
theorem prefix_addGroups : groups <+: addGroups groups more := by
  induction more generalizing groups with
  | nil => exact List.prefix_refl groups
  | cons first more ih =>
    have hstep : addGroups groups (first :: more) =
        addGroups (if first ∈ groups then groups else groups ++ [first]) more := rfl
    rw [hstep]
    refine List.IsPrefix.trans ?_ ih
    split_ifs
    · exact List.prefix_refl groups
    · exact List.prefix_append groups [first]

namespace Accounts

variable {a : Accounts} {user : Account}

/-- More groups, and a user with a group and a home directory of its own. -/
def withUser (a : Accounts) (groups : List Str) (user : Account) : Accounts :=
  ⟨addGroups a.groups groups ++ [user.name], a.users ++ [user], a.homes ++ [user.name]⟩

/-- After more groups, a user can be added unless its name is taken by a user or a group. -/
theorem addUser_eq_some_iff {shell : Str} {a' : Accounts} :
    ({ a with groups := addGroups a.groups groups } : Accounts).addUser name shell = some a' ↔
      name ∉ a.names ∧ (name ∉ a.groups ∧ name ∉ groups) ∧
        a' = a.withUser groups ⟨name, shell, none, []⟩ := by
  have hnames : ({ a with groups := addGroups a.groups groups } : Accounts).names = a.names := rfl
  simp only [addUser, hnames, mem_addGroups]
  by_cases htaken : name ∈ a.names ∨ name ∈ a.groups ∨ name ∈ groups
  · rw [if_pos htaken]
    simp only [reduceCtorEq, false_iff]
    rintro ⟨huser, ⟨hgroup, hmore⟩, -⟩
    exact htaken.elim huser fun h => h.elim hgroup hmore
  · rw [if_neg htaken, Option.some.injEq, eq_comm]
    push Not at htaken
    exact ⟨fun h => ⟨htaken.1, htaken.2, h⟩, fun h => h.2.2⟩

theorem mem_names_withUser : user.name ∈ (a.withUser groups user).names := by
  simp [withUser, names]

/-- The new user is the only one of its name. -/
theorem change_withUser (hnew : user.name ∉ a.names) {f : Account → Account}
    (hf : (f user).name = user.name) :
    (a.withUser groups user).change user.name f = a.withUser groups (f user) := by
  have hothers : (a.users.map fun other => if other.name = user.name then f other else other) =
      a.users := by
    refine (List.map_congr_left fun other hother => if_neg ?_).trans (List.map_id' a.users)
    exact fun hname => hnew (hname ▸ List.mem_map_of_mem hother)
  simp [withUser, change, hothers, hf]

theorem joinGroups_withUser (hnew : user.name ∉ a.names) :
    (a.withUser groups user).joinGroups groups user.name =
      some (a.withUser groups { user with groups := addGroups user.groups groups }) := by
  have hmem : ∀ group ∈ groups, group ∈ (a.withUser groups user).groups := fun group hgroup =>
    List.mem_append_left _ (mem_addGroups.mpr (.inr hgroup))
  rw [joinGroups, if_pos ⟨mem_names_withUser, hmem⟩]
  exact congrArg some (change_withUser hnew rfl)

theorem ownHome_withUser :
    (a.withUser groups user).ownHome user.name = some (a.withUser groups user) := by
  refine if_pos ⟨mem_names_withUser, ?_, ?_⟩ <;> simp [withUser]

theorem setPassword_withUser (hnew : user.name ∉ a.names) (password : Str) :
    (a.withUser groups user).setPassword password user.name =
      some (a.withUser groups { user with password := some password }) := by
  rw [setPassword, if_pos mem_names_withUser]
  exact congrArg some (change_withUser hnew rfl)

end Accounts

/-- The accounts with more groups and a user. -/
def Target.withUser (groups : List Str) (user : Account) (t : Target) : Target :=
  { t with accounts := t.accounts.withUser groups user }

theorem Target.onAccounts_withUser {op : Accounts → Option Accounts} {t : Target}
    {user user' : Account}
    (h : op (t.accounts.withUser groups user) = some (t.accounts.withUser groups user')) :
    Target.onAccounts op (t.withUser groups user) = some (t.withUser groups user') := by
  rw [onAccounts, withUser, h]
  rfl

/-- The default groups join the target if their names are accepted. -/
theorem inTurn_addGroup (validName : Str → Bool) (t : Target) :
    inTurn (more.map fun group => Target.onAccounts fun a =>
        if validName group then some (a.addGroup group) else none) t =
      if ∀ group ∈ more, validName group = true then
        some { t with accounts := { t.accounts with groups := addGroups t.accounts.groups more } }
      else none := by
  induction more generalizing t with
  | nil => simp [addGroups]
  | cons first more ih =>
    rw [List.map_cons, inTurn_cons, Target.onAccounts]
    by_cases hfirst : validName first = true
    · rw [if_pos hfirst, Option.map_some, Option.bind_some, ih]
      simp only [List.forall_mem_cons, hfirst, true_and]
      rfl
    · rw [if_neg hfirst, Option.map_none, Option.bind_none, if_neg]
      exact fun hall => hfirst (hall first List.mem_cons_self)

end Operations

/-! ## When the user is created -/

/-- **The user can be created**: there are default groups, with the sudoers group among them; the
tools accept all names and the shell, if there is one; and no user or group has the name of the user
yet. -/
structure Creatable (validName setPermissions : Str → Bool) (userInfo : UserInfo)
    (defaultGroups : List Str) (mountpoint : Str) (t : Target) : Prop where
  groups : defaultGroups ≠ []
  sudoersGroup : userInfo.sudoersGroup = [] ∨ userInfo.sudoersGroup ∈ defaultGroups
  valid : ∀ name ∈ userInfo.username :: defaultGroups, validName name = true
  shell : userInfo.shell = [] ∨ validShell userInfo.shell = true
  newUser : userInfo.username ∉ t.accounts.names
  newGroup : userInfo.username ∉ t.accounts.groups ∧ userInfo.username ∉ defaultGroups
  sudoers : userInfo.sudoersGroup ≠ [] → t.files.writable (User.sudoersFilepath mountpoint) = true ∧
    setPermissions (User.sudoersFilepath mountpoint) = true

/-- **The target with the user**, its groups and the sudoers file. -/
def Target.created (userInfo : UserInfo) (password : Str) (defaultGroups : List Str)
    (mountpoint : Str) (t : Target) : Target where
  accounts := t.accounts.withUser defaultGroups
    ⟨userInfo.username, userInfo.shell, some password, addGroups [] defaultGroups⟩
  files := if userInfo.sudoersGroup = [] then t.files
    else t.files.set (User.sudoersFilepath mountpoint)
      (some (User.sudoersLine userInfo.sudoersGroup))

/-- **What an attempt can leave**, however it ends: some of the default groups, the user with some of
what it was to get, and the sudoers file. -/
structure Target.Keeps (userInfo : UserInfo) (defaultGroups : List Str) (mountpoint : Str)
    (t t' : Target) : Prop where
  groups : t.accounts.groups <+: t'.accounts.groups
  newGroups : ∀ group ∈ t'.accounts.groups,
    group ∈ t.accounts.groups ∨ group = userInfo.username ∨ group ∈ defaultGroups
  users : t'.accounts.users = t.accounts.users ∨ userInfo.username ∉ t.accounts.names ∧
    ∃ user, user.name = userInfo.username ∧ t'.accounts.users = t.accounts.users ++ [user]
  files : ∀ path, path ≠ User.sudoersFilepath mountpoint →
    t'.files.content path = t.files.content path

section Run

variable {exec : Exec Str Target} {validName setPermissions : Str → Bool} {output : Str → Str}
  {userInfo : UserInfo} {defaultGroups : List Str} {mountpoint : Str} {t t' : Target}

theorem Target.onAccounts_eq_some_iff {op : Accounts → Option Accounts} :
    Target.onAccounts op t = some t' ↔ ∃ a, op t.accounts = some a ∧ { t with accounts := a } = t' := by
  simp [Target.onAccounts]

theorem carriesOut_userCmd (htools : AccountTools exec validName mountpoint)
    (hmountpoint : LiteralWord mountpoint) {name shell : Str} (hname : LiteralWord name)
    (hshell : Literal shell) :
    CarriesOut exec (archChrootChecked (userCmd name shell) mountpoint)
      (Target.onAccounts fun a =>
        if validName name ∧ (shell = [] ∨ validShell shell) then a.addUser name shell else none) := by
  have hparse := parse_userCmd hmountpoint hname hshell
  split_ifs at hparse with hempty
  · simp only [hempty, true_or, and_true]
    exact htools.useradd _ _ (hempty ▸ hparse)
  · simp only [hempty, false_or]
    exact htools.useraddShell _ _ _ hparse

/-- The commands up to the one that adds the user, and the others. -/
theorem createUserCmds_split : createUserCmds userInfo defaultGroups mountpoint =
    (defaultGroups.map (createGroup · mountpoint) ++
      [archChrootChecked (userCmd userInfo.username userInfo.shell) mountpoint]) ++
    [archChrootChecked (groupsSetCmd defaultGroups userInfo.username) mountpoint,
      archChrootChecked (setupCmd userInfo.username) mountpoint] := by
  simp [createUserCmds]

/-- The default groups, and then the user. -/
theorem run_groups_and_user (htools : AccountTools exec validName mountpoint)
    (hmountpoint : LiteralWord mountpoint) (hname : LiteralWord userInfo.username)
    (hshell : Literal userInfo.shell) (hgroups : ∀ group ∈ defaultGroups, LiteralWord group) :
    runAll exec (defaultGroups.map (createGroup · mountpoint) ++
        [archChrootChecked (userCmd userInfo.username userInfo.shell) mountpoint]) t = (true, t') ↔
      (∀ name ∈ userInfo.username :: defaultGroups, validName name = true) ∧
        (userInfo.shell = [] ∨ validShell userInfo.shell = true) ∧
        userInfo.username ∉ t.accounts.names ∧
        (userInfo.username ∉ t.accounts.groups ∧ userInfo.username ∉ defaultGroups) ∧
        t' = t.withUser defaultGroups ⟨userInfo.username, userInfo.shell, none, []⟩ := by
  have hadd : List.Forall₂ (CarriesOut exec) (defaultGroups.map (createGroup · mountpoint))
      (defaultGroups.map fun group => Target.onAccounts fun a =>
        if validName group then some (a.addGroup group) else none) := by
    rw [List.forall₂_map_left_iff, List.forall₂_map_right_iff, List.forall₂_same]
    exact fun group hgroup =>
      htools.groupadd _ group (parse_createGroup hmountpoint (hgroups group hgroup))
  have huser := carriesOut_userCmd htools hmountpoint hname hshell
  rw [runAll_eq_true_iff (List.rel_append hadd (.cons huser .nil)), inTurn_append, inTurn_addGroup,
    List.forall_mem_cons]
  by_cases hvalid : ∀ group ∈ defaultGroups, validName group = true
  · rw [if_pos hvalid, Option.bind_some, inTurn_cons, Option.bind_eq_some_iff]
    simp only [inTurn_nil, Option.some.injEq, exists_eq_right, Target.onAccounts_eq_some_iff,
      and_iff_left hvalid]
    by_cases haccepted : validName userInfo.username = true ∧
        (userInfo.shell = [] ∨ validShell userInfo.shell = true)
    · simp only [if_pos haccepted, Accounts.addUser_eq_some_iff, and_assoc]
      rw [and_iff_right haccepted.1, and_iff_right haccepted.2]
      constructor
      · rintro ⟨a, hnew, hgroup, hdefault, rfl, rfl⟩
        exact ⟨hnew, hgroup, hdefault, rfl⟩
      · rintro ⟨hnew, hgroup, hdefault, rfl⟩
        exact ⟨_, hnew, hgroup, hdefault, rfl, rfl⟩
    · simp only [if_neg haccepted, reduceCtorEq, false_and, exists_false, false_iff]
      exact fun h => haccepted ⟨h.1, h.2.1⟩
  · rw [if_neg hvalid, Option.bind_none]
    simp only [reduceCtorEq, false_iff]
    exact fun h => hvalid h.1.2

/-- The user joins the default groups and gets the home directory. -/
theorem run_groups_and_home (htools : AccountTools exec validName mountpoint)
    (hmountpoint : LiteralWord mountpoint) (hname : LiteralWord userInfo.username)
    (hgroups : ∀ group ∈ defaultGroups, LiteralWord group)
    (hvalid : ∀ name ∈ userInfo.username :: defaultGroups, validName name = true)
    (hnew : userInfo.username ∉ t.accounts.names) :
    runAll exec [archChrootChecked (groupsSetCmd defaultGroups userInfo.username) mountpoint,
        archChrootChecked (setupCmd userInfo.username) mountpoint]
        (t.withUser defaultGroups ⟨userInfo.username, userInfo.shell, none, []⟩) =
      (decide (defaultGroups ≠ []), t.withUser defaultGroups
        ⟨userInfo.username, userInfo.shell, none, addGroups [] defaultGroups⟩) := by
  obtain ⟨hname', hgroups'⟩ := List.forall_mem_cons.mp hvalid
  have hhome : CarriesOut exec (archChrootChecked (setupCmd userInfo.username) mountpoint)
      (Target.onAccounts (Accounts.ownHome userInfo.username)) :=
    htools.chown _ _ (htools.separators _ hname').2 (parse_setupCmd hmountpoint hname)
  have hparse := parse_groupsSetCmd hmountpoint hname hgroups
  by_cases hempty : defaultGroups = []
  · rw [if_pos hempty] at hparse
    have husage := htools.usermodUsage _ _ hparse
    rw [runAll_cons, andThen, husage]
    simp [attempt, hempty, addGroups]
  · rw [if_neg hempty] at hparse
    have hjoin := htools.usermodGroups _ _ _ hempty
      (fun group hgroup => (htools.separators group (hgroups' group hgroup)).1) hparse
    have hjoined : Target.onAccounts (Accounts.joinGroups defaultGroups userInfo.username)
        (t.withUser defaultGroups ⟨userInfo.username, userInfo.shell, none, []⟩) =
          some (t.withUser defaultGroups
            ⟨userInfo.username, userInfo.shell, none, addGroups [] defaultGroups⟩) :=
      Target.onAccounts_withUser (Accounts.joinGroups_withUser hnew)
    have howned : Target.onAccounts (Accounts.ownHome userInfo.username)
        (t.withUser defaultGroups
          ⟨userInfo.username, userInfo.shell, none, addGroups [] defaultGroups⟩) =
        some (t.withUser defaultGroups
          ⟨userInfo.username, userInfo.shell, none, addGroups [] defaultGroups⟩) :=
      Target.onAccounts_withUser Accounts.ownHome_withUser
    rw [decide_eq_true hempty, runAll_eq_true_iff (.cons hjoin (.cons hhome .nil)), inTurn_cons,
      hjoined, Option.bind_some, inTurn_cons, howned, Option.bind_some, inTurn_nil]

/-- All commands of the list. -/
theorem run_createUserCmds (htools : AccountTools exec validName mountpoint)
    (hmountpoint : LiteralWord mountpoint) (hname : LiteralWord userInfo.username)
    (hshell : Literal userInfo.shell) (hgroups : ∀ group ∈ defaultGroups, LiteralWord group) :
    runAll exec (createUserCmds userInfo defaultGroups mountpoint) t = (true, t') ↔
      defaultGroups ≠ [] ∧
        (∀ name ∈ userInfo.username :: defaultGroups, validName name = true) ∧
        (userInfo.shell = [] ∨ validShell userInfo.shell = true) ∧
        userInfo.username ∉ t.accounts.names ∧
        (userInfo.username ∉ t.accounts.groups ∧ userInfo.username ∉ defaultGroups) ∧
        t' = t.withUser defaultGroups
          ⟨userInfo.username, userInfo.shell, none, addGroups [] defaultGroups⟩ := by
  rw [createUserCmds_split, runAll_append, andThen_eq_true_iff]
  constructor
  · rintro ⟨_, huser, hhome⟩
    obtain ⟨hvalid, haccepted, hnew, hgroup, rfl⟩ :=
      (run_groups_and_user htools hmountpoint hname hshell hgroups).mp huser
    rw [run_groups_and_home htools hmountpoint hname hgroups hvalid hnew, Prod.mk.injEq,
      decide_eq_true_iff] at hhome
    exact ⟨hhome.1, hvalid, haccepted, hnew, hgroup, hhome.2.symm⟩
  · rintro ⟨hne, hvalid, haccepted, hnew, hgroup, rfl⟩
    exact ⟨_, (run_groups_and_user htools hmountpoint hname hshell hgroups).mpr
      ⟨hvalid, haccepted, hnew, hgroup, rfl⟩,
      by rw [run_groups_and_home htools hmountpoint hname hgroups hvalid hnew, decide_eq_true hne]⟩

theorem onAccounts_setPassword {name shell : Str} {old : Option Str} {groups : List Str}
    (hnew : name ∉ t.accounts.names) (password : Str) :
    Target.onAccounts (Accounts.setPassword password name)
        (t.withUser defaultGroups ⟨name, shell, old, groups⟩) =
      some (t.withUser defaultGroups ⟨name, shell, some password, groups⟩) :=
  Target.onAccounts_withUser
    (Accounts.setPassword_withUser hnew password)

/-- The end of the function. -/
theorem setupSudoers_eq_true_iff {sudoersGroup : Str} :
    User.setupSudoers setPermissions sudoersGroup mountpoint t = (true, t') ↔
      (sudoersGroup ≠ [] → t.files.writable (User.sudoersFilepath mountpoint) = true ∧
        setPermissions (User.sudoersFilepath mountpoint) = true) ∧
      t' = { t with files := if sudoersGroup = [] then t.files
        else t.files.set (User.sudoersFilepath mountpoint) (some (User.sudoersLine sudoersGroup)) } := by
  have hstart : User.setupSudoers setPermissions sudoersGroup mountpoint t =
      if sudoersGroup = [] then (true, t)
      else if t.files.writable (User.sudoersFilepath mountpoint) = true then
        (setPermissions (User.sudoersFilepath mountpoint), ⟨t.accounts,
          t.files.set (User.sudoersFilepath mountpoint) (some (User.sudoersLine sudoersGroup))⟩)
      else (false, t) := by
    unfold User.setupSudoers createFileForOverwrite
    simp only [List.isEmpty_iff]
    split_ifs <;> rfl
  rw [hstart]
  split_ifs with hempty hwritable
  · simp only [Prod.mk.injEq, true_and, ne_eq, hempty, not_true_eq_false, false_implies]
    exact eq_comm
  · simp only [Prod.mk.injEq, ne_eq, hempty, not_false_eq_true, hwritable, true_and, forall_true_left]
    exact and_congr_right fun _ => eq_comm
  · simp [hempty, hwritable]

/-- A new user on a fresh target. -/
def freshTarget : Target := ⟨⟨[lit "root"], [⟨lit "root", [], none, []⟩], []⟩, .single [] []⟩

/-- Names without the separators. -/
def plainName (name : Str) : Bool := ',' ∉ name ∧ ':' ∉ name

theorem plainName_separators (name : Str) (h : plainName name = true) : ',' ∉ name ∧ ':' ∉ name := by
  simpa [plainName] using h

/-- The user that the installer adds. -/
def newUser : UserInfo := ⟨lit "user", lit "secret", lit "/bin/bash", lit "wheel"⟩

theorem Target.Keeps.refl (t : Target) : t.Keeps userInfo defaultGroups mountpoint t :=
  ⟨List.prefix_refl _, fun _ h => .inl h, .inl rfl, fun _ _ => rfl⟩

theorem Target.Keeps.withUser {user : Account} (hname : user.name = userInfo.username)
    (hnew : userInfo.username ∉ t.accounts.names) :
    t.Keeps userInfo defaultGroups mountpoint (t.withUser defaultGroups user) := by
  refine ⟨prefix_addGroups.trans (List.prefix_append _ _), fun group hgroup => ?_,
    .inr ⟨hnew, user, hname, rfl⟩, fun _ _ => rfl⟩
  rcases List.mem_append.mp hgroup with h | h
  · exact (mem_addGroups.mp h).imp_right .inr
  · exact .inr (.inl ((List.mem_singleton.mp h).trans hname))

/-- A default group is added. -/
theorem Target.Keeps.groupadd {group : Str} {s s' : Target} (hgroup : group ∈ defaultGroups)
    (hs : t.Keeps userInfo defaultGroups mountpoint s)
    (hop : Target.onAccounts (fun a => if validName group then some (a.addGroup group) else none) s =
      some s') : t.Keeps userInfo defaultGroups mountpoint s' := by
  obtain ⟨a, ha, rfl⟩ := onAccounts_eq_some_iff.mp hop
  obtain ⟨-, ha⟩ := Option.ite_none_right_eq_some.mp ha
  obtain rfl := Option.some.inj ha
  refine ⟨hs.groups.trans prefix_addGroups, fun group' hgroup' => ?_, hs.users, hs.files⟩
  rcases mem_addGroups.mp hgroup' with h | h
  · exact hs.newGroups group' h
  · exact .inr (.inr (List.mem_singleton.mp h ▸ hgroup))

/-- The user is added, once. -/
theorem Target.Keeps.useradd {shell : Str} {s s' : Target}
    (hs : t.Keeps userInfo defaultGroups mountpoint s)
    (hop : Target.onAccounts (fun a =>
      if validName userInfo.username ∧ (shell = [] ∨ validShell shell) then
        a.addUser userInfo.username shell else none) s = some s') :
    t.Keeps userInfo defaultGroups mountpoint s' := by
  obtain ⟨a, ha, rfl⟩ := onAccounts_eq_some_iff.mp hop
  obtain ⟨-, ha⟩ := Option.ite_none_right_eq_some.mp ha
  rw [Accounts.addUser] at ha
  obtain ⟨hfree, ha⟩ := Option.ite_none_left_eq_some.mp ha
  obtain rfl := Option.some.inj ha
  push Not at hfree
  rcases hs.users with husers | ⟨-, user, hname, husers⟩
  · refine ⟨hs.groups.trans (List.prefix_append _ _), fun group hgroup => ?_,
      .inr ⟨?_, _, rfl, congrArg (· ++ _) husers⟩, hs.files⟩
    · rcases List.mem_append.mp hgroup with h | h
      · exact hs.newGroups group h
      · exact .inr (.inl (List.mem_singleton.mp h))
    · rw [Accounts.names, ← husers]
      exact hfree.1
  · refine absurd ?_ hfree.1
    rw [Accounts.names, husers, List.map_append, List.mem_append]
    exact .inr (List.mem_singleton.mpr hname.symm)

/-- The sudoers file is the only one that is touched. -/
theorem Target.Keeps.setupSudoers {sudoersGroup : Str} {s : Target}
    (hs : t.Keeps userInfo defaultGroups mountpoint s) :
    t.Keeps userInfo defaultGroups mountpoint
      (User.setupSudoers setPermissions sudoersGroup mountpoint s).2 := by
  unfold User.setupSudoers createFileForOverwrite
  split_ifs with hempty hwritable
  · exact hs
  · exact ⟨hs.groups, hs.newGroups, hs.users, fun path hpath =>
      (FileSystem.content_set_of_ne _ _ hpath).trans (hs.files path hpath)⟩
  · exact hs

/-- **However it ends**, the groups and users that were there are left as they were, at most this user
is added, and no file but the sudoers file is touched. -/
theorem createNewUser_keeps (htools : AccountTools exec validName mountpoint)
    (hmountpoint : LiteralWord mountpoint) (hname : LiteralWord userInfo.username)
    (hshell : Literal userInfo.shell) (hgroups : ∀ group ∈ defaultGroups, LiteralWord group)
    (hpassword : Quotable (output (opensslPasswd userInfo.password))) :
    t.Keeps userInfo defaultGroups mountpoint
      (User.createNewUser exec output setPermissions userInfo defaultGroups mountpoint t).2 := by
  have hset := htools.usermodPassword _ _ _ (parse_passwordSetCmd hmountpoint hname hpassword)
  rw [User.createNewUser]
  split_ifs
  · exact .refl t
  have hfirst : t.Keeps userInfo defaultGroups mountpoint
      (runAll exec (defaultGroups.map (createGroup · mountpoint) ++
        [archChrootChecked (userCmd userInfo.username userInfo.shell) mountpoint]) t).2 := by
    refine runAll_keeps (fun cmd hcmd s hs => ?_) (.refl t)
    rcases List.mem_append.mp hcmd with h | h
    · obtain ⟨group, hgroup, rfl⟩ := List.mem_map.mp h
      exact (htools.groupadd _ group (parse_createGroup hmountpoint (hgroups group hgroup))).keeps
        (fun _ _ hs hop => hs.groupadd hgroup hop) hs
    · rw [List.mem_singleton.mp h]
      exact (carriesOut_userCmd htools hmountpoint hname hshell).keeps
        (fun _ _ hs hop => hs.useradd hop) hs
  refine andThen_keeps ?_ fun s hs => ?_
  · rw [createUserCmds_split, runAll_append]
    refine andThen_keeps hfirst fun s hs => ?_
    obtain ⟨hvalid, -, hnew, -, rfl⟩ :=
      (run_groups_and_user htools hmountpoint hname hshell hgroups).mp hs
    rw [run_groups_and_home htools hmountpoint hname hgroups hvalid hnew]
    exact .withUser rfl hnew
  · obtain ⟨-, -, -, hnew, -, rfl⟩ :=
      (run_createUserCmds htools hmountpoint hname hshell hgroups).mp hs
    refine andThen_keeps ?_ fun s' hs' => ?_
    · rw [User.setUserPassword, hset, attempt, onAccounts_setPassword hnew]
      exact .withUser rfl hnew
    · rw [User.setUserPassword, hset, attempt, onAccounts_setPassword hnew, Prod.mk.injEq] at hs'
      exact hs'.2 ▸ (Target.Keeps.withUser rfl hnew).setupSudoers

/-- The same attempt where the user is there already. -/
theorem createNewUser_again :
    (freshTarget.created newUser (lit "hash") [lit "wheel"] (lit "/mnt")).Keeps newUser
      [lit "wheel", lit "audio"] (lit "/mnt")
      (User.createNewUser (runAccountTools plainName (lit "/mnt")) (fun _ => lit "hash")
        (fun _ => true) newUser [lit "wheel", lit "audio"] (lit "/mnt")
        (freshTarget.created newUser (lit "hash") [lit "wheel"] (lit "/mnt"))).2 := by
  refine createNewUser_keeps (accountTools (lit "/mnt") plainName_separators) ?_ ?_ ?_ ?_ ?_
  · rw [lit_ofList]; decide
  · simp only [newUser]; rw [lit_ofList]; decide
  · simp only [newUser]; rw [lit_ofList]; decide
  · repeat rw [lit_ofList]
    decide
  · rw [lit_ofList]; decide

end Run

end CliInstaller
