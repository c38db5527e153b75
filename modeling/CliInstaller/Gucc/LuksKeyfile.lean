import CliInstaller.General.Logged
import CliInstaller.Gucc.CommandLines

/-!
# `gucc::crypto`: the key file of an encrypted partition

`luks1_setup_keyfile` generates a key file, unless there is one, sets its permissions, adds it to
the LUKS header and to the images. Every step is a command of its own, whose files are formatted
into its text; a command does what its program does with the words that a shell reads in this text.

Source: `gucc/src/luks.cpp`, `gucc/src/io_utils.cpp`, `src/utils.cpp`.

## Main definitions

* `ddCmd`, `chmodCmd`, `luks1AddKeyCmd`, `grepCmd`, `sedCmd`: the command lines
* `KeyfileEffect`, `Program`: what the commands do
* `luks1SetupKeyfile`: the function; it returns true where the computation ends
* `KeyfileReady`: the key file is set up, and nothing else
* `SameKeyfile`: the condition on the arguments and on what is answered

## Main results

* `parse_initcpioCmd`: how the line of two commands is read
* `effects_luks1SetupKeyfile`, `effects_of_plainWord`: what is done when it returns true
* `keyfileReady_iff`: when the key file is set up
-/

namespace CliInstaller

open Logging Shell Splitting

/-! ## The commands -/

/-- A command whose output is thrown away. -/
def quiet (cmd : Str) : Str := cmd ++ lit " &>/dev/null"

/-- The command that generates the key file. Its format has one field, which the first of the three
arguments fills. -/
def ddCmd (additionalFlags _partition _destFile : Str) : Str :=
  quiet (lit "dd bs=512 count=4 if=/dev/urandom of=" ++ additionalFlags ++ lit " iflag=fullblock")

def chmodCmd (destFile : Str) : Str := lit "chmod 600 " ++ destFile

/-- The command of `crypto::luks1_add_key` -/
def luks1AddKeyCmd (destFile partition additionalFlags : Str) : Str :=
  quiet (lit "cryptsetup -q " ++ additionalFlags ++ lit " luksAddKey " ++ partition ++ [' '] ++
    destFile)

def mkinitcpioConf (mountpoint : Str) : Str := mountpoint ++ lit "/etc/mkinitcpio.conf"

/-- The first part of the command that adds the key file to the images. -/
def grepCmd (mkinitcpioConf : Str) : Str := lit "grep -q '/crypto_keyfile.bin' " ++ mkinitcpioConf

/-- The second part, for when the first one fails. -/
def sedCmd (mkinitcpioConf : Str) : Str :=
  lit "sed -i '/FILES/ s~)~/crypto_keyfile.bin)~' " ++ mkinitcpioConf

/-- The line of both. -/
def initcpioCmd (mkinitcpioConf : Str) : Str :=
  grepCmd mkinitcpioConf ++ lit " || " ++ sedCmd mkinitcpioConf

/-- `utils::arch_chroot`: `"arch-chroot {} {} 2>>/tmp/cachyos-install.log 2>&1"` -/
def archChroot (command mountpoint : Str) : Str :=
  lit "arch-chroot " ++ mountpoint ++ [' '] ++ command ++ lit " 2>>/tmp/cachyos-install.log 2>&1"

/-- Its redirections -/
def chrootLogTokens : List Token :=
  [.ioNumber ['2'], .operator ['>', '>'], .word (lit "/tmp/cachyos-install.log"),
    .ioNumber ['2'], .operator ['>', '&'], .word ['1']]

/-! ## What they do -/

/-- What a command does when it succeeds. -/
inductive KeyfileEffect where
  /-- a file is written with random bytes -/
  | generated (path : Str)
  /-- only its owner can read a file -/
  | permissionsSet (path : Str)
  /-- a key file opens a partition -/
  | keyAdded (partition keyFile : Str)
  /-- a file is edited in place -/
  | edited (path : Str)
  /-- a command is run in a root directory -/
  | ran (root : Str) (command : List Str)
  /-- a line is not read as one command of literal words -/
  | unread (line : Str)
  deriving DecidableEq, Repr

/-- What a program does with its words, the first of which is its name; none where it refuses them. -/
abbrev Program := List Str → Option (List KeyfileEffect)

/-- A word with a hyphen in front; a hyphen alone is none. -/
def isOption (word : Str) : Bool := word.head? = some '-' && word ≠ ['-']

/-- The words that are no options and no values of options; after two hyphens all words. -/
def operands (takesValue : Str → Bool) : List Str → List Str
  | [] => []
  | [word] => if isOption word then [] else [word]
  | word :: next :: words =>
    if word = lit "--" then next :: words
    else if !isOption word then word :: operands takesValue (next :: words)
    else if takesValue word then operands takesValue words
    else operands takesValue (next :: words)

/-- The names of the operands of `dd`, each of which has a value. -/
def ddNames : List Str :=
  [lit "bs", lit "cbs", lit "conv", lit "count", lit "ibs", lit "if", lit "iflag", lit "iseek",
    lit "obs", lit "of", lit "oflag", lit "oseek", lit "seek", lit "skip", lit "status"]

def ddAccepts (word : Str) : Bool := ddNames.any fun name => startsWith word (name ++ ['='])

/-- The file that `dd` writes: its last operand of this name. -/
def ddOutput (words : List Str) : Option Str :=
  ((words.filter (startsWith · (lit "of="))).getLast?).map (List.drop 3)

/-- `dd` refuses a word that is none of its operands. -/
def dd : Program := fun words =>
  if words.tail.all ddAccepts then some ((ddOutput words).toList.map .generated) else none

/-- The first operand of `chmod` is the mode. -/
def chmod : Program := fun words =>
  some ((operands (fun _ => false) words.tail).tail.map .permissionsSet)

/-- The device and the new key file of an action; a hyphen stands for the standard input. -/
def luksAddKeyOperands (takesValue : Str → Bool) (args : List Str) : Option (Str × Str) :=
  match operands takesValue args with
  | action :: device :: keyFile :: _ =>
    if action = lit "luksAddKey" ∧ keyFile ≠ ['-'] then some (device, keyFile) else none
  | _ => none

def cryptsetup (takesValue : Str → Bool) : Program := fun words =>
  some ((luksAddKeyOperands takesValue words.tail).toList.map
    fun operands => .keyAdded operands.1 operands.2)

/-- The first operand of `sed` is the script. -/
def sed : Program := fun words => some ((operands (fun _ => false) words.tail).tail.map .edited)

/-- The root directory comes first. -/
def chrooted : List Str → List KeyfileEffect
  | root :: command => [.ran root command]
  | [] => []

def chrootRun : Program := fun words => some (chrooted words.tail)

/-- What a line does, which is one command for a program and ends in the given tokens. -/
def lineEffects (tail : List Token) (program : Program) (line : Str) : Option (List KeyfileEffect) :=
  match commandWords tail line with
  | some words => program words
  | none => some [.unread line]

section Function

variable (existing : Str → Bool) (replies : Replies) (takesValue : Str → Bool)

/-- What a command does, if it succeeds. -/
def outcome (tail : List Token) (program : Program) (cmd : Str) : Option (List KeyfileEffect) :=
  if replies.succeeds cmd then lineEffects tail program cmd else none

/-- A command that has to succeed. -/
def checkedCmd (tail : List Token) (program : Program) (cmd : Str) :
    Logged KeyfileEffect Unit Unit :=
  match outcome replies tail program cmd with
  | some effects => Logged.tell effects
  | none => Logged.ofExcept (.error ())

/-- A command whose answer is ignored. -/
def ignoredCmd (tail : List Token) (program : Program) (cmd : Str) :
    Logged KeyfileEffect Unit Unit :=
  Logged.tell ((outcome replies tail program cmd).getD [])

/-- 1. Generate keyfile if it doesn't exist yet -/
def generateKeyfile (destFile partition additionalFlags : Str) : Logged KeyfileEffect Unit Unit :=
  if existing destFile then pure ()
  else checkedCmd replies nullTokens dd (ddCmd additionalFlags partition destFile)

/-- 2. Set permissions to 600 -/
def setPermissions (destFile : Str) : Logged KeyfileEffect Unit Unit :=
  ignoredCmd replies [] chmod (chmodCmd destFile)

/-- 3. Add keyfile to luks: `crypto::luks1_add_key` -/
def luks1AddKey (destFile partition additionalFlags : Str) : Logged KeyfileEffect Unit Unit :=
  checkedCmd replies nullTokens (cryptsetup takesValue)
    (luks1AddKeyCmd destFile partition additionalFlags)

/-- 4. Add keyfile to initcpio: the second command of the line runs where the first one fails. -/
def addToInitcpio (mountpoint : Str) : Logged KeyfileEffect Unit Unit :=
  if replies.succeeds (grepCmd (mkinitcpioConf mountpoint)) then pure ()
  else checkedCmd replies [] sed (sedCmd (mkinitcpioConf mountpoint))

/-- **`crypto::luks1_setup_keyfile`**: it returns true where the computation ends. -/
def luks1SetupKeyfile (destFile mountpoint partition additionalFlags : Str) :
    Logged KeyfileEffect Unit Unit := do
  generateKeyfile existing replies destFile partition additionalFlags
  setPermissions replies destFile
  luks1AddKey replies takesValue destFile partition additionalFlags
  addToInitcpio replies mountpoint
  ignoredCmd replies chrootLogTokens chrootRun (archChroot (lit "mkinitcpio -P") mountpoint)

end Function

/-! ## How their texts are read -/

section Words

variable {text word : Str} {words' : List Str} {takesValue : Str → Bool}

/-- A text that is one word. -/
def OneWord (text : Str) : Prop := text ≠ [] ∧ ∀ c ∈ text, blank c = false

instance (text : Str) : Decidable (OneWord text) :=
  @instDecidableAnd _ _ inferInstance (List.decidableBAll _ text)

theorem OneWord.words (h : OneWord text) : words blank text = [text] :=
  words_eq_singleton_iff.mpr h

/-- A word that is no option is an operand. -/
theorem operands_cons (h : isOption word = false) :
    operands takesValue (word :: words') = word :: operands takesValue words' := by
  have hhyphens : word ≠ lit "--" := by
    rintro rfl
    revert h
    rw [lit_ofList]
    decide
  rcases words' with _ | ⟨next, words'⟩
  · simp [operands, h]
  · simp [operands, h, hhyphens]

/-- An option without a value is passed over. -/
theorem operands_option (h : isOption word = true) (hhyphens : word ≠ lit "--")
    (hvalue : takesValue word = false) :
    operands takesValue (word :: words') = operands takesValue words' := by
  rcases words' with _ | ⟨next, words'⟩
  · simp [operands, h]
  · simp [operands, h, hhyphens, hvalue]

theorem mem_of_operands (h : word ∈ operands takesValue words') : word ∈ words' := by
  fun_induction operands takesValue words' with
  | case1 => exact h
  | case2 => cases h
  | case3 => exact h
  | case4 => exact List.mem_cons_of_mem _ h
  | case5 first next rest hhyphens hoption ih =>
    rcases List.mem_cons.mp h with rfl | h
    · exact List.mem_cons_self
    · exact List.mem_cons_of_mem _ (ih h)
  | case6 first next rest hhyphens hoption hvalue ih =>
    exact List.mem_cons_of_mem _ (List.mem_cons_of_mem _ (ih h))
  | case7 first next rest hhyphens hoption hvalue ih => exact List.mem_cons_of_mem _ (ih h)

theorem mem_chrooted {effect : KeyfileEffect} :
    effect ∈ chrooted words' ↔ ∃ root command, effect = .ran root command ∧ words' = root :: command := by
  rcases words' with _ | ⟨root, command⟩
  · simp [chrooted]
  · simp [chrooted]

/-- The operands of an action are among the words. -/
theorem mem_of_luksAddKeyOperands {device keyFile : Str}
    (h : luksAddKeyOperands takesValue words' = some (device, keyFile)) :
    device ∈ words' ∧ keyFile ∈ words' := by
  unfold luksAddKeyOperands at h
  split at h
  next action device' keyFile' rest hoperands =>
    have hmem (word : Str) (hword : word ∈ action :: device' :: keyFile' :: rest) : word ∈ words' :=
      mem_of_operands (hoperands ▸ hword)
    split_ifs at h
    obtain ⟨rfl, rfl⟩ := Prod.mk.inj (Option.some.inj h)
    exact ⟨hmem _ (by simp), hmem _ (by simp)⟩
  next => cases h

theorem quiet_eq (cmd : Str) : quiet cmd = cmd ++ ' ' :: '&' :: lit ">/dev/null" := by
  simp [quiet, lit_eq]

theorem commandWords_quiet (h : PlainText text) :
    commandWords nullTokens (quiet text) = some (words blank text) := by
  rw [commandWords_iff rfl, quiet_eq, h.parse_words, parse_null]
  rfl

theorem commandWords_ddCmd {additionalFlags : Str} (partition destFile : Str)
    (hflags : PlainText additionalFlags) :
    commandWords nullTokens (ddCmd additionalFlags partition destFile) =
      some (words blank (lit "dd bs=512 count=4 if=/dev/urandom") ++
        (words blank (lit "of=" ++ additionalFlags) ++ words blank (lit "iflag=fullblock"))) := by
  have hcmd : PlainText (lit "dd bs=512 count=4 if=/dev/urandom of=" ++ additionalFlags ++
      lit " iflag=fullblock") :=
    (PlainText.append (by rw [lit_ofList]; decide) hflags).append (by rw [lit_ofList]; decide)
  have hsplit : lit "dd bs=512 count=4 if=/dev/urandom of=" ++ additionalFlags ++
      lit " iflag=fullblock" = lit "dd bs=512 count=4 if=/dev/urandom" ++ ' ' ::
        (lit "of=" ++ additionalFlags ++ ' ' :: lit "iflag=fullblock") := by
    simp [lit_eq]
  rw [ddCmd, commandWords_quiet hcmd, hsplit, words_append_cons rfl, words_append_cons rfl]

/-- `dd` writes the file that its flags name. -/
theorem ddOutput_append (flagWords : List Str) :
    ddOutput (words blank (lit "dd bs=512 count=4 if=/dev/urandom") ++
      (flagWords ++ words blank (lit "iflag=fullblock"))) = ddOutput flagWords := by
  have hbefore : (words blank (lit "dd bs=512 count=4 if=/dev/urandom")).filter
      (startsWith · (lit "of=")) = [] := by
    rw [lit_ofList, lit_ofList]
    decide
  have hafter : (words blank (lit "iflag=fullblock")).filter (startsWith · (lit "of=")) = [] := by
    rw [lit_ofList, lit_ofList]
    decide
  rw [ddOutput, List.filter_append, List.filter_append, hbefore, hafter, List.nil_append,
    List.append_nil, ddOutput]

theorem chmodCmd_eq (destFile : Str) : chmodCmd destFile = lit "chmod 600" ++ ' ' :: destFile := by
  simp [chmodCmd, lit_eq]

/-- A file that `chmod` is given is a plain word. -/
theorem plainWord_of_chmodCmd {destFile : Str} (h : commandWords [] (chmodCmd destFile) = some words')
    (hmem : destFile ∈ words') : PlainWord destFile := by
  have hcmd : PlainText (lit "chmod 600") := by rw [lit_ofList]; decide
  rw [commandWords_iff rfl, chmodCmd_eq, hcmd.parse_words, List.append_nil] at h
  obtain ⟨tokens, hparse, htokens⟩ := Option.map_eq_some_iff.mp h
  have hword : .word destFile ∈ (words blank (lit "chmod 600")).map .word ++ tokens :=
    htokens ▸ List.mem_map_of_mem hmem
  rcases List.mem_append.mp hword with hword | hword
  · obtain ⟨word, hword, heq⟩ := List.mem_map.mp hword
    exact Token.word.inj heq ▸ hcmd.plainWord_of_mem hword
  · exact plainWord_of_parse hparse hword

theorem commandWords_chmodCmd {destFile : Str} (h : PlainWord destFile) :
    commandWords [] (chmodCmd destFile) = some [lit "chmod", lit "600", destFile] := by
  have hcmd : PlainText (lit "chmod 600") := by rw [lit_ofList]; decide
  have hwords : words blank (lit "chmod 600") = [lit "chmod", lit "600"] := by
    repeat rw [lit_ofList]
    decide
  rw [commandWords_iff rfl, chmodCmd_eq, hcmd.parse_words, parse_last h, hwords]
  rfl

/-- The flags and the action come before the partition. -/
theorem luks1AddKeyCmd_eq (destFile partition additionalFlags : Str) :
    luks1AddKeyCmd destFile partition additionalFlags =
      (lit "cryptsetup -q" ++ ' ' :: (additionalFlags ++ ' ' :: lit "luksAddKey")) ++ ' ' ::
        (partition ++ ' ' :: (destFile ++ ' ' :: '&' :: lit ">/dev/null")) := by
  rw [luks1AddKeyCmd, quiet_eq]
  simp [lit_eq]

theorem plainText_luksAddKey {additionalFlags : Str} (hflags : PlainText additionalFlags) :
    PlainText (lit "cryptsetup -q" ++ ' ' :: (additionalFlags ++ ' ' :: lit "luksAddKey")) := by
  have hblank : PlainText [' '] := by decide
  have haction : PlainText (lit "luksAddKey") := by rw [lit_ofList]; decide
  exact PlainText.append (by rw [lit_ofList]; decide)
    (hblank.append (hflags.append (hblank.append haction)))

/-- **A partition that `cryptsetup` is given** before a plain word is a plain word, too. -/
theorem plainWord_of_luks1AddKeyCmd {destFile partition additionalFlags : Str}
    (hflags : PlainText additionalFlags) (hfile : PlainWord destFile)
    (h : commandWords nullTokens (luks1AddKeyCmd destFile partition additionalFlags) = some words')
    (hmem : partition ∈ words') : PlainWord partition := by
  have hcmd := plainText_luksAddKey hflags
  rw [commandWords_iff rfl, luks1AddKeyCmd_eq, hcmd.parse_words] at h
  obtain ⟨tokens, hparse, htokens⟩ := Option.map_eq_some_iff.mp h
  by_cases hnull : partition = lit "/dev/null"
  · rw [hnull, lit_ofList]
    decide
  have hnot : .word partition ∉ nullTokens := by simp [nullTokens, hnull]
  have hword : .word partition ∈ (words blank _).map .word ++ tokens :=
    htokens ▸ List.mem_append_left _ (List.mem_map_of_mem hmem)
  rcases List.mem_append.mp hword with hword | hword
  · obtain ⟨word, hword, heq⟩ := List.mem_map.mp hword
    exact Token.word.inj heq ▸ hcmd.plainWord_of_mem hword
  · exact plainWord_of_mem_before hfile hparse parse_null (by rw [lit_ofList]; decide +kernel)
      (by rw [lit_ofList]; decide +kernel) hword hnot

theorem commandWords_luks1AddKeyCmd {destFile partition additionalFlags : Str}
    (hflags : PlainText additionalFlags) (hfile : PlainWord destFile)
    (hpartition : PlainWord partition) :
    commandWords nullTokens (luks1AddKeyCmd destFile partition additionalFlags) =
      some (lit "cryptsetup" :: lit "-q" :: (words blank additionalFlags ++
        [lit "luksAddKey", partition, destFile])) := by
  have hcmd := plainText_luksAddKey hflags
  have hquiet : words blank (lit "cryptsetup -q") = [lit "cryptsetup", lit "-q"] := by
    repeat rw [lit_ofList]
    decide
  have haction : words blank (lit "luksAddKey") = [lit "luksAddKey"] := by
    repeat rw [lit_ofList]
    decide
  rw [commandWords_iff rfl, luks1AddKeyCmd_eq, hcmd.parse_words, parse_plainWord hpartition,
    parse_plainWord hfile, parse_null, words_append_cons rfl, words_append_cons rfl, hquiet, haction]
  simp

theorem plainText_mkinitcpioConf {mountpoint : Str} (h : PlainText mountpoint) :
    PlainText (mkinitcpioConf mountpoint) :=
  h.append (by rw [lit_ofList]; decide)

/-- The script is quoted. -/
theorem parse_sedCmd {conf : Str} (h : PlainText conf) :
    parse (sedCmd conf) = some ((lit "sed" :: lit "-i" :: lit "/FILES/ s~)~/crypto_keyfile.bin)~" ::
      words blank conf).map .word) := by
  have hsplit : sedCmd conf = lit "sed" ++ ' ' :: (lit "-i" ++ ' ' :: ('\x27' ::
      lit "/FILES/ s~)~/crypto_keyfile.bin)~" ++ '\x27' :: ' ' :: conf)) := by
    simp [sedCmd, lit_eq]
  rw [hsplit, parse_plainWord (by rw [lit_ofList]; decide),
    parse_plainWord (by rw [lit_ofList]; decide), parse_quoted (by rw [lit_ofList]; decide),
    h.parse_eq]
  rfl

theorem commandWords_sedCmd {conf : Str} (h : PlainText conf) :
    commandWords [] (sedCmd conf) = some (lit "sed" :: lit "-i" ::
      lit "/FILES/ s~)~/crypto_keyfile.bin)~" :: words blank conf) := by
  rw [commandWords_iff rfl, List.append_nil]
  exact parse_sedCmd h

/-- **The line of two commands**: a shell reads the words of each. -/
theorem parse_initcpioCmd {conf : Str} (h : PlainText conf) :
    parse (initcpioCmd conf) =
      some ((lit "grep" :: lit "-q" :: lit "/crypto_keyfile.bin" :: words blank conf).map .word ++
        .operator ['|', '|'] :: (lit "sed" :: lit "-i" ::
          lit "/FILES/ s~)~/crypto_keyfile.bin)~" :: words blank conf).map .word) := by
  have hsplit : initcpioCmd conf = lit "grep" ++ ' ' :: (lit "-q" ++ ' ' :: ('\x27' ::
      lit "/crypto_keyfile.bin" ++ '\x27' :: ' ' :: (conf ++ ' ' :: ('|' :: '|' :: ' ' ::
        sedCmd conf)))) := by
    simp [initcpioCmd, grepCmd, lit_eq]
  have hor (rest : Str) : parse ('|' :: '|' :: ' ' :: rest) =
      (parse rest).map (.operator ['|', '|'] :: ·) :=
    @parseFrom_blank ⟨[], .operator ['|', '|'], .plain⟩ rest rfl
  rw [hsplit, parse_plainWord (by rw [lit_ofList]; decide),
    parse_plainWord (by rw [lit_ofList]; decide), parse_quoted (by rw [lit_ofList]; decide),
    h.parse_words, hor, parse_sedCmd h]
  simp

theorem commandWords_archChroot {mountpoint : Str} (h : PlainText mountpoint) :
    commandWords chrootLogTokens (archChroot (lit "mkinitcpio -P") mountpoint) =
      some (lit "arch-chroot" :: (words blank mountpoint ++ [lit "mkinitcpio", lit "-P"])) := by
  have hsplit : archChroot (lit "mkinitcpio -P") mountpoint = lit "arch-chroot" ++ ' ' ::
      (mountpoint ++ ' ' :: (lit "mkinitcpio" ++ ' ' :: (lit "-P" ++ ' ' ::
        lit "2>>/tmp/cachyos-install.log 2>&1"))) := by
    simp [archChroot, lit_eq]
  have hlog : parse (lit "2>>/tmp/cachyos-install.log 2>&1") = some chrootLogTokens := by
    unfold chrootLogTokens
    repeat rw [lit_ofList]
    decide +kernel
  rw [commandWords_iff rfl, hsplit, parse_plainWord (by rw [lit_ofList]; decide), h.parse_words,
    parse_plainWord (by rw [lit_ofList]; decide), parse_plainWord (by rw [lit_ofList]; decide), hlog]
  simp

end Words

/-! ## What is done -/

/-- **The key file is set up, and nothing else.** -/
structure KeyfileReady (existing : Str → Bool) (destFile mountpoint partition : Str)
    (effects : List KeyfileEffect) : Prop where
  /-- there is a key file -/
  present : existing destFile = true ∨ .generated destFile ∈ effects
  /-- its permissions are set after it was created -/
  restricted : ∃ before after, effects = before ++ .permissionsSet destFile :: after ∧
    (existing destFile = true ∨ .generated destFile ∈ before) ∧ .generated destFile ∉ after
  /-- it is what is added to the header of the partition -/
  added : ∀ device keyFile,
    .keyAdded device keyFile ∈ effects ↔ device = partition ∧ keyFile = destFile
  /-- nothing else is written, except `mkinitcpio.conf` -/
  writes : ∀ path, .generated path ∈ effects ∨ .edited path ∈ effects →
    path = destFile ∨ path = mkinitcpioConf mountpoint
  /-- what is run in another root directory builds the images of the target -/
  images : ∀ root command, .ran root command ∈ effects →
    root = mountpoint ∧ command = [lit "mkinitcpio", lit "-P"]
  /-- all lines are read as they are meant -/
  read : ∀ line, .unread line ∉ effects
  /-- it is what is generated, if there was none -/
  generated : existing destFile = false → ∀ path, .generated path ∈ effects ↔ path = destFile

/-- **All commands are given the same key file**: its path and the partition are plain words, which
`cryptsetup` reads after the flags, the flags name it where it is still to be generated, and its
permissions can be set. What is edited is `mkinitcpio.conf`, and the images are those of the
mountpoint. -/
structure SameKeyfile (existing : Str → Bool) (replies : Replies) (takesValue : Str → Bool)
    (destFile mountpoint partition additionalFlags : Str) : Prop where
  oneFile : PlainWord destFile
  noOption : isOption destFile = false
  onePartition : PlainWord partition
  added : luksAddKeyOperands takesValue (lit "-q" :: (words blank additionalFlags ++
    [lit "luksAddKey", partition, destFile])) = some (partition, destFile)
  generated : existing destFile = true ∨
    ddOutput (words blank (lit "of=" ++ additionalFlags)) = some destFile
  restricted : replies.succeeds (chmodCmd destFile) = true
  edited : replies.succeeds (grepCmd (mkinitcpioConf mountpoint)) = true ∨
    ∀ path ∈ operands (fun _ => false) (words blank (mkinitcpioConf mountpoint)),
      path = destFile ∨ path = mkinitcpioConf mountpoint
  images : replies.succeeds (archChroot (lit "mkinitcpio -P") mountpoint) = true → OneWord mountpoint

section Run

variable {existing : Str → Bool} {replies : Replies} {takesValue : Str → Bool}
  {destFile mountpoint partition additionalFlags cmd : Str} {tail : List Token} {program : Program}
  {effects log : List KeyfileEffect} {u : Unit}

theorem ends_checkedCmd_iff :
    Ends (checkedCmd replies tail program cmd) log u ↔
      outcome replies tail program cmd = some log := by
  rw [checkedCmd]
  rcases outcome replies tail program cmd with _ | effects
  · simp
  · simp [eq_comm]

/-- A line does what its program does, or it is not read. -/
theorem mem_outcome {effect : KeyfileEffect} (h : outcome replies tail program cmd = some log)
    (hmem : effect ∈ log) (hread : ∀ line, effect ≠ .unread line) :
    ∃ words, commandWords tail cmd = some words ∧ program words = some log := by
  rw [outcome] at h
  split_ifs at h
  rw [lineEffects] at h
  split at h
  next words hwords => exact ⟨words, hwords, h⟩
  next =>
    obtain rfl := Option.some.inj h
    exact absurd (List.mem_singleton.mp hmem) (hread cmd)

theorem outcome_of_words {words : List Str} (h : commandWords tail cmd = some words) :
    outcome replies tail program cmd = if replies.succeeds cmd then program words else none := by
  rw [outcome, lineEffects, h]

theorem ends_generateKeyfile (hflags : PlainText additionalFlags)
    (h : Ends (generateKeyfile existing replies destFile partition additionalFlags) log u) :
    log = if existing destFile then []
      else (ddOutput (words blank (lit "of=" ++ additionalFlags))).toList.map .generated := by
  rw [generateKeyfile] at h
  split_ifs at h ⊢ with hexisting
  · exact (ends_pure.mp h).1
  · rw [ends_checkedCmd_iff, outcome_of_words (commandWords_ddCmd partition destFile hflags), dd,
      ddOutput_append] at h
    split_ifs at h
    exact (Option.some.inj h).symm

theorem ends_addToInitcpio (hmountpoint : PlainText mountpoint)
    (h : Ends (addToInitcpio replies mountpoint) log u) :
    log = if replies.succeeds (grepCmd (mkinitcpioConf mountpoint)) then []
      else (operands (fun _ => false) (words blank (mkinitcpioConf mountpoint))).map .edited := by
  have hscript : (operands (fun _ => false) (lit "-i" :: lit "/FILES/ s~)~/crypto_keyfile.bin)~" ::
      words blank (mkinitcpioConf mountpoint))).tail =
        operands (fun _ => false) (words blank (mkinitcpioConf mountpoint)) := by
    rw [operands_option (by rw [lit_ofList]; decide) (by decide +kernel) rfl,
      operands_cons (by rw [lit_ofList]; decide), List.tail_cons]
  rw [addToInitcpio] at h
  split_ifs at h ⊢ with hgrep
  · exact (ends_pure.mp h).1
  · rw [ends_checkedCmd_iff,
      outcome_of_words (commandWords_sedCmd (plainText_mkinitcpioConf hmountpoint)), sed,
      List.tail_cons, hscript] at h
    split_ifs at h
    exact (Option.some.inj h).symm

theorem outcome_archChroot (hmountpoint : PlainText mountpoint) :
    (outcome replies chrootLogTokens chrootRun
        (archChroot (lit "mkinitcpio -P") mountpoint)).getD [] =
      if replies.succeeds (archChroot (lit "mkinitcpio -P") mountpoint) then
        chrooted (words blank mountpoint ++ [lit "mkinitcpio", lit "-P"])
      else [] := by
  rw [outcome_of_words (commandWords_archChroot hmountpoint), chrootRun, List.tail_cons]
  split_ifs <;> rfl

/-- **What is done when the function returns true**, where the flags and the mountpoint need no
quotation. -/
theorem effects_luks1SetupKeyfile (hflags : PlainText additionalFlags)
    (hmountpoint : PlainText mountpoint)
    (h : Ends (luks1SetupKeyfile existing replies takesValue destFile mountpoint partition
      additionalFlags) effects u) :
    ∃ added, outcome replies nullTokens (cryptsetup takesValue)
        (luks1AddKeyCmd destFile partition additionalFlags) = some added ∧
      effects = (if existing destFile then []
          else (ddOutput (words blank (lit "of=" ++ additionalFlags))).toList.map .generated) ++
        ((outcome replies [] chmod (chmodCmd destFile)).getD [] ++ (added ++
          ((if replies.succeeds (grepCmd (mkinitcpioConf mountpoint)) then []
            else (operands (fun _ => false) (words blank (mkinitcpioConf mountpoint))).map .edited) ++
          (if replies.succeeds (archChroot (lit "mkinitcpio -P") mountpoint) then
            chrooted (words blank mountpoint ++ [lit "mkinitcpio", lit "-P"])
          else [])))) := by
  obtain ⟨_, generated, afterDd, hgenerated, hafterDd, rfl⟩ := ends_bind.mp h
  obtain ⟨_, restricted, afterChmod, hrestricted, hafterChmod, rfl⟩ := ends_bind.mp hafterDd
  obtain ⟨_, added, afterKey, hadded, hafterKey, rfl⟩ := ends_bind.mp hafterChmod
  obtain ⟨_, edited, images, hedited, himages, rfl⟩ := ends_bind.mp hafterKey
  obtain rfl := ends_generateKeyfile hflags hgenerated
  obtain rfl := ends_tell.mp hrestricted
  obtain rfl := ends_addToInitcpio hmountpoint hedited
  obtain rfl := ends_tell.mp himages
  exact ⟨added, ends_checkedCmd_iff.mp hadded, by rw [outcome_archChroot hmountpoint]⟩

/-- What sets the permissions of the key file is given a plain word. -/
theorem plainWord_of_permissionsSet (hflags : PlainText additionalFlags)
    (hmountpoint : PlainText mountpoint)
    (h : Ends (luks1SetupKeyfile existing replies takesValue destFile mountpoint partition
      additionalFlags) effects u) (hmem : .permissionsSet destFile ∈ effects) : PlainWord destFile := by
  obtain ⟨added, hadded, rfl⟩ := effects_luks1SetupKeyfile hflags hmountpoint h
  simp only [List.mem_append] at hmem
  rcases hmem with hmem | hmem | hmem | hmem | hmem
  · split_ifs at hmem <;> simp at hmem
  · rcases houtcome : outcome replies [] chmod (chmodCmd destFile) with _ | log
    · rw [houtcome] at hmem
      cases hmem
    · rw [houtcome, Option.getD_some] at hmem
      obtain ⟨words, hwords, hlog⟩ := mem_outcome houtcome hmem (by simp)
      obtain rfl := Option.some.inj hlog
      obtain ⟨path, hpath, heq⟩ := List.mem_map.mp hmem
      obtain rfl := KeyfileEffect.permissionsSet.inj heq
      exact plainWord_of_chmodCmd hwords
        (List.mem_of_mem_tail (mem_of_operands (List.mem_of_mem_tail hpath)))
  · obtain ⟨words, -, hlog⟩ := mem_outcome hadded hmem (by simp)
    obtain rfl := Option.some.inj hlog
    simp at hmem
  · split_ifs at hmem <;> simp at hmem
  · split_ifs at hmem
    · simp [mem_chrooted] at hmem
    · cases hmem

/-- And what adds it is given a partition that is a plain word. -/
theorem plainWord_of_keyAdded (hflags : PlainText additionalFlags)
    (hmountpoint : PlainText mountpoint) (hfile : PlainWord destFile)
    (h : Ends (luks1SetupKeyfile existing replies takesValue destFile mountpoint partition
      additionalFlags) effects u) (hmem : .keyAdded partition destFile ∈ effects) :
    PlainWord partition := by
  obtain ⟨added, hadded, rfl⟩ := effects_luks1SetupKeyfile hflags hmountpoint h
  simp only [List.mem_append] at hmem
  rcases hmem with hmem | hmem | hmem | hmem | hmem
  · split_ifs at hmem <;> simp at hmem
  · rw [outcome_of_words (commandWords_chmodCmd hfile), chmod] at hmem
    split_ifs at hmem
    · obtain ⟨path, -, heq⟩ := List.mem_map.mp hmem
      cases heq
    · cases hmem
  · obtain ⟨words, hwords, hlog⟩ := mem_outcome hadded hmem (by simp)
    obtain rfl := Option.some.inj hlog
    simp only [List.mem_map, Option.mem_toList, KeyfileEffect.keyAdded.injEq] at hmem
    obtain ⟨⟨device, keyFile⟩, hoperands, rfl, rfl⟩ := hmem
    exact plainWord_of_luks1AddKeyCmd hflags hfile hwords
      (List.mem_of_mem_tail (mem_of_luksAddKeyOperands hoperands).1)
  · split_ifs at hmem <;> simp at hmem
  · split_ifs at hmem
    · simp [mem_chrooted] at hmem
    · cases hmem

/-- **What is done where the key file and the partition are plain words**, too. -/
theorem effects_of_plainWord (hflags : PlainText additionalFlags)
    (hmountpoint : PlainText mountpoint) (hfile : PlainWord destFile)
    (hpartition : PlainWord partition)
    (h : Ends (luks1SetupKeyfile existing replies takesValue destFile mountpoint partition
      additionalFlags) effects u) :
    effects = (if existing destFile then []
        else (ddOutput (words blank (lit "of=" ++ additionalFlags))).toList.map .generated) ++
      ((if replies.succeeds (chmodCmd destFile) then
          (operands (fun _ => false) [destFile]).map .permissionsSet else []) ++
        ((luksAddKeyOperands takesValue (lit "-q" :: (words blank additionalFlags ++
            [lit "luksAddKey", partition, destFile]))).toList.map
            (fun operands => .keyAdded operands.1 operands.2) ++
          ((if replies.succeeds (grepCmd (mkinitcpioConf mountpoint)) then []
            else (operands (fun _ => false) (words blank (mkinitcpioConf mountpoint))).map .edited) ++
          (if replies.succeeds (archChroot (lit "mkinitcpio -P") mountpoint) then
            chrooted (words blank mountpoint ++ [lit "mkinitcpio", lit "-P"])
          else [])))) := by
  obtain ⟨added, hadded, rfl⟩ := effects_luks1SetupKeyfile hflags hmountpoint h
  rw [outcome_of_words (commandWords_luks1AddKeyCmd hflags hfile hpartition), cryptsetup,
    List.tail_cons] at hadded
  split_ifs at hadded
  rw [← Option.some.inj hadded, outcome_of_words (commandWords_chmodCmd hfile), chmod, List.tail_cons,
    operands_cons (by rw [lit_ofList]; decide), List.tail_cons]
  split_ifs <;> rfl

section Effects

variable (hflags : PlainText additionalFlags) (hmountpoint : PlainText mountpoint)
  (hfile : PlainWord destFile) (hpartition : PlainWord partition)
  (h : Ends (luks1SetupKeyfile existing replies takesValue destFile mountpoint partition
    additionalFlags) effects u)

include hflags hmountpoint hfile hpartition h

theorem mem_generated_iff {path : Str} :
    .generated path ∈ effects ↔ existing destFile = false ∧
      ddOutput (words blank (lit "of=" ++ additionalFlags)) = some path := by
  rw [effects_of_plainWord hflags hmountpoint hfile hpartition h]
  simp [mem_chrooted]

theorem mem_permissionsSet_iff {path : Str} :
    .permissionsSet path ∈ effects ↔ replies.succeeds (chmodCmd destFile) = true ∧
      isOption destFile = false ∧ path = destFile := by
  rw [effects_of_plainWord hflags hmountpoint hfile hpartition h]
  simp [mem_chrooted, operands]

theorem mem_keyAdded_iff {device keyFile : Str} :
    .keyAdded device keyFile ∈ effects ↔
      luksAddKeyOperands takesValue (lit "-q" :: (words blank additionalFlags ++
        [lit "luksAddKey", partition, destFile])) = some (device, keyFile) := by
  rw [effects_of_plainWord hflags hmountpoint hfile hpartition h]
  simp [mem_chrooted]

theorem mem_edited_iff {path : Str} :
    .edited path ∈ effects ↔
      replies.succeeds (grepCmd (mkinitcpioConf mountpoint)) = false ∧
        path ∈ operands (fun _ => false) (words blank (mkinitcpioConf mountpoint)) := by
  rw [effects_of_plainWord hflags hmountpoint hfile hpartition h]
  simp [mem_chrooted]

theorem mem_ran_iff {root : Str} {command : List Str} :
    .ran root command ∈ effects ↔
      replies.succeeds (archChroot (lit "mkinitcpio -P") mountpoint) = true ∧
        words blank mountpoint ++ [lit "mkinitcpio", lit "-P"] = root :: command := by
  rw [effects_of_plainWord hflags hmountpoint hfile hpartition h]
  simp [mem_chrooted]

theorem not_mem_unread (line : Str) : .unread line ∉ effects := by
  rw [effects_of_plainWord hflags hmountpoint hfile hpartition h]
  simp [mem_chrooted]

end Effects

/-! ## When the key file is set up -/

section Ready

variable (hflags : PlainText additionalFlags) (hmountpoint : PlainText mountpoint)
  (h : Ends (luks1SetupKeyfile existing replies takesValue destFile mountpoint partition
    additionalFlags) effects u)

include hflags hmountpoint h

theorem sameKeyfile_of_ready (hready : KeyfileReady existing destFile mountpoint partition effects) :
    SameKeyfile existing replies takesValue destFile mountpoint partition additionalFlags := by
  obtain ⟨before, after, heffects, -, -⟩ := hready.restricted
  have hrestricted : .permissionsSet destFile ∈ effects := by simp [heffects]
  have hadded := (hready.added partition destFile).mpr ⟨rfl, rfl⟩
  have hfile := plainWord_of_permissionsSet hflags hmountpoint h hrestricted
  have hpartition := plainWord_of_keyAdded hflags hmountpoint hfile h hadded
  obtain ⟨hsucceeds, hoption, -⟩ :=
    (mem_permissionsSet_iff hflags hmountpoint hfile hpartition h).mp hrestricted
  refine ⟨hfile, hoption, hpartition, ?_, ?_, hsucceeds, ?_, ?_⟩
  · exact (mem_keyAdded_iff hflags hmountpoint hfile hpartition h).mp hadded
  · refine hready.present.imp_right fun hgenerated => ?_
    exact ((mem_generated_iff hflags hmountpoint hfile hpartition h).mp hgenerated).2
  · rcases hgrep : replies.succeeds (grepCmd (mkinitcpioConf mountpoint)) with _ | _
    · refine .inr fun path hpath => hready.writes path (.inr ?_)
      exact (mem_edited_iff hflags hmountpoint hfile hpartition h).mpr ⟨hgrep, hpath⟩
    · exact .inl rfl
  · intro himages
    obtain ⟨root, command, hroot⟩ := List.exists_cons_of_ne_nil (List.append_ne_nil_of_right_ne_nil
      (words blank mountpoint) (List.cons_ne_nil (lit "mkinitcpio") [lit "-P"]))
    obtain ⟨rfl, rfl⟩ := hready.images root command
      ((mem_ran_iff hflags hmountpoint hfile hpartition h).mpr ⟨himages, hroot⟩)
    have hone : words blank root ++ [lit "mkinitcpio", lit "-P"] =
        [root] ++ [lit "mkinitcpio", lit "-P"] := hroot
    exact words_eq_singleton_iff.mp (List.append_cancel_right hone)

/-- The permissions are set between what generates the file and everything else. -/
theorem restricted_of_sameKeyfile
    (hsame : SameKeyfile existing replies takesValue destFile mountpoint partition additionalFlags) :
    ∃ before after, effects = before ++ .permissionsSet destFile :: after ∧
      (existing destFile = true ∨ .generated destFile ∈ before) ∧ .generated destFile ∉ after := by
  have heffects := effects_of_plainWord hflags hmountpoint hsame.oneFile hsame.onePartition h
  have hoperands : operands (fun _ => false) [destFile] = [destFile] := by
    simp [operands, hsame.noOption]
  rw [if_pos hsame.restricted, hoperands, List.map_singleton, List.singleton_append] at heffects
  refine ⟨_, _, heffects, ?_, by simp [mem_chrooted]⟩
  rcases hsame.generated with hexisting | houtput
  · exact .inl hexisting
  · rcases hexisting : existing destFile with _ | _
    · exact .inr (by simp [houtput])
    · exact .inl rfl

theorem ready_of_sameKeyfile
    (hsame : SameKeyfile existing replies takesValue destFile mountpoint partition additionalFlags) :
    KeyfileReady existing destFile mountpoint partition effects := by
  have hfile := hsame.oneFile
  have hpartition := hsame.onePartition
  have houtput (hexisting : existing destFile = false) :
      ddOutput (words blank (lit "of=" ++ additionalFlags)) = some destFile :=
    hsame.generated.resolve_left (by simp [hexisting])
  refine ⟨?_, restricted_of_sameKeyfile hflags hmountpoint h hsame, ?_, ?_, ?_,
    not_mem_unread hflags hmountpoint hfile hpartition h, ?_⟩
  · rcases hexisting : existing destFile with _ | _
    · exact .inr ((mem_generated_iff hflags hmountpoint hfile hpartition h).mpr
        ⟨hexisting, houtput hexisting⟩)
    · exact .inl rfl
  · intro device keyFile
    rw [mem_keyAdded_iff hflags hmountpoint hfile hpartition h, hsame.added, Option.some.injEq,
      Prod.mk.injEq]
    exact and_congr eq_comm eq_comm
  · rintro path (hgenerated | hedited)
    · obtain ⟨hexisting, hpath⟩ :=
        (mem_generated_iff hflags hmountpoint hfile hpartition h).mp hgenerated
      rw [houtput hexisting] at hpath
      exact .inl (Option.some.inj hpath).symm
    · obtain ⟨hgrep, hpath⟩ := (mem_edited_iff hflags hmountpoint hfile hpartition h).mp hedited
      exact hsame.edited.resolve_left (by simp [hgrep]) path hpath
  · intro root command hran
    obtain ⟨himages, hroot⟩ := (mem_ran_iff hflags hmountpoint hfile hpartition h).mp hran
    rw [(hsame.images himages).words, List.singleton_append, List.cons.injEq] at hroot
    exact ⟨hroot.1.symm, hroot.2.symm⟩
  · intro hexisting path
    rw [mem_generated_iff hflags hmountpoint hfile hpartition h, houtput hexisting,
      and_iff_right hexisting, Option.some.injEq]
    exact eq_comm

end Ready

end Run

/-! ## The key file of the installer -/

/-- The path that `utils::setup_luks_keyfile` gives. -/
def keyfilePath : Str := lit "/mnt/crypto_keyfile.bin"

/-- The flags that it gives. -/
def keyfileFlags : Str := lit "--pbkdf-force-iterations 200000"

/-- The option among them is followed by its value. -/
def keyfileFlagTakesValue (word : Str) : Bool := word = lit "--pbkdf-force-iterations"

/-- Every command succeeds but these. -/
def allSucceedBut (failing : List Str) : Replies :=
  ⟨fun _ => [], fun cmd => !failing.contains cmd⟩

theorem plainText_keyfileFlags : PlainText keyfileFlags := by
  rw [keyfileFlags, lit_ofList]
  decide

end CliInstaller
