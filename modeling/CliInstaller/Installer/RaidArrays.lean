import CliInstaller.General.Machine
import CliInstaller.Gucc.StreamEdits
import CliInstaller.Installer.CommandWords
import CliInstaller.Installer.RaidDevice

/-!
# RAID arrays and `/etc/mdadm.conf`

The RAID menu creates arrays and removes them. After an array is created the lines of all running
arrays are appended to `/etc/mdadm.conf`; when one is removed, `sed` deletes the lines in which the
name of its device occurs. That name occurs in the lines of other arrays too: `md1` occurs in the line
of `/dev/md10`. So the file agrees with the running arrays only along runs that never remove such an
array, and never choose a running array as a disk of a new one.

Source: `src/tui.cpp`.

## Main definitions

* `RaidHost`: the running arrays, and the file
* `MdadmTools`: what the tools do, in terms of the tokens of a line
* `raidCreateArray`, `raidRemoveArray`: the two entries of the menu
* `raidMachine`: visits of the menu one after the other, each with its answers
* `RaidHost.Agrees`: the file lists the running arrays, and no other

## Main results

* `raid_agrees_iff`: along which runs the file agrees with the arrays
-/

namespace CliInstaller

open Shell Splitting Commands Machines Sorting

/-! ## The arrays -/

/-- A running array. -/
structure MdArray where
  device : Str
  level : Str
  disks : List Str
  deriving DecidableEq, Repr

/-- The running arrays, in the order in which they were started, the text of `/etc/mdadm.conf`, and
the entry `RAID` of the configuration; `terminated` is set where an exception leaves a function. -/
structure RaidHost where
  arrays : List MdArray
  mdadmConf : Str
  raid : Bool
  terminated : Bool
  deriving DecidableEq, Repr

namespace RaidHost

/-- The devices of the arrays. -/
def devices (s : RaidHost) : List Str := s.arrays.map MdArray.device

/-- `mdadm --stop`: an array that runs, and can be stopped, is stopped. -/
def stop (stoppable : Str → Bool) (device : Str) (s : RaidHost) : Option RaidHost :=
  if device ∈ s.devices ∧ stoppable device = true then
    some { s with arrays := s.arrays.filter fun array => array.device ≠ device }
  else none

/-- `mdadm --create`: the device is new, and the disks are disks that no array uses. -/
def create (usable : MdArray → Bool) (array : MdArray) (s : RaidHost) : Option RaidHost :=
  if array.device ∉ s.devices ∧ array.device ∉ array.disks ∧ usable array = true then
    some { s with arrays := s.arrays ++ [array] }
  else none

/-- `mdadm --detail --scan >> /etc/mdadm.conf` -/
def appendScan (scanLine : MdArray → Str) (s : RaidHost) : RaidHost :=
  { s with mdadmConf := s.mdadmConf ++ Sed.unlines (s.arrays.map scanLine) [] }

/-- An edit of the file. -/
def editConf (f : Str → Option Str) (s : RaidHost) : RaidHost :=
  { s with mdadmConf := Sed.editText f s.mdadmConf }

/-- What `ls /dev/md* 2>/dev/null | grep -E '^/dev/md[0-9]+$'` prints, without the last newline. -/
def listing (s : RaidHost) : Str := join (Sorter.stable.byKey id s.devices) '\n'

end RaidHost

/-- `2>/dev/null` -/
def mutedTokens : List Token := [.ioNumber ['2'], .operator ['>'], .word (lit "/dev/null")]

/-- The line of an array in the output of `mdadm --detail --scan`. -/
def scanLine (details : MdArray → Str) (array : MdArray) : Str :=
  lit "ARRAY " ++ array.device ++ ' ' :: details array

/-- **What the tools do.** Which arrays can be stopped and which disks can be used is left open. -/
structure MdadmTools (exec : Exec Str RaidHost) (stoppable : Str → Bool) (usable : MdArray → Bool)
    (details : MdArray → Str) : Prop where
  stop : ∀ line device, parse line = some [.word (lit "mdadm"), .word (lit "--stop"), .word device] →
    CarriesOut exec line (RaidHost.stop stoppable device)
  stopQuietly : ∀ line device,
    parse line = some ([.word (lit "mdadm"), .word (lit "--stop"), .word device] ++ mutedTokens) →
      CarriesOut exec line (RaidHost.stop stoppable device)
  /-- a super block is no part of what is described -/
  zeroSuperblock : ∀ line device, parse line =
      some ([.word (lit "mdadm"), .word (lit "--zero-superblock"), .word device] ++ mutedTokens) →
    ∀ s, (exec line s).2 = s
  create : ∀ line (array : MdArray), parse line = some ([.word (lit "mdadm"), .word (lit "--create"),
      .word array.device, .word (lit "--level=" ++ array.level),
      .word (lit "--raid-devices=" ++ formatInt array.disks.length)] ++ array.disks.map .word ++
        [.word (lit "--run")]) →
    CarriesOut exec line (RaidHost.create usable array)
  scan : ∀ line, parse line = some [.word (lit "mdadm"), .word (lit "--detail"), .word (lit "--scan"),
      .operator ['>', '>'], .word (lit "/etc/mdadm.conf")] →
    CarriesOut exec line fun s => some (s.appendScan (scanLine details))
  edit : ∀ line script cmd, parse line = some ([.word (lit "sed"), .word (lit "-i"), .word script,
      .word (lit "/etc/mdadm.conf")] ++ mutedTokens) → Sed.parseCommand script = some cmd →
    CarriesOut exec line fun s => some (s.editConf cmd.run)
  /-- the details are one line -/
  oneLine : ∀ array, '\n' ∉ details array

/-! ## Tools that do what they are said to do -/

/-- The operation of a command. -/
def mdadmOperation (stoppable : Str → Bool) (usable : MdArray → Bool) (details : MdArray → Str) :
    List Str → RaidHost → Option RaidHost
  | program :: option :: args, s =>
    if option = lit "--stop" then
      match args with
      | [device] => s.stop stoppable device
      | _ => none
    else if option = lit "--zero-superblock" then some s
    else if option = lit "--create" then
      match args with
      | device :: level :: _ :: disks => s.create usable ⟨device, level.drop 8, disks.dropLast⟩
      | _ => none
    else if option = lit "--detail" then some (s.appendScan (scanLine details))
    else if program = lit "sed" then
      match args with
      | [script, _] => (Sed.parseCommand script).map fun cmd => s.editConf cmd.run
      | _ => none
    else none
  | _, _ => none

/-- A shell with these tools. -/
def runMdadm (stoppable : Str → Bool) (usable : MdArray → Bool) (details : MdArray → Str)
    (line : Str) : RaidHost → Bool × RaidHost :=
  match parse line with
  | some tokens => attempt (mdadmOperation stoppable usable details (leadingWords tokens).1)
  | none => fun s => (false, s)

/-- **The tools do what they are said to do**, in this shell. -/
theorem mdadmTools (stoppable : Str → Bool) (usable : MdArray → Bool) {details : MdArray → Str}
    (honeLine : ∀ array, '\n' ∉ details array) :
    MdadmTools (runMdadm stoppable usable details) stoppable usable details := by
  have hrun {line : Str} {tokens : List Token} {words : List Str} {op : RaidHost → Option RaidHost}
      (hline : parse line = some tokens) (hwords : (leadingWords tokens).1 = words)
      (hop : mdadmOperation stoppable usable details words = op) :
      CarriesOut (runMdadm stoppable usable details) line op := by
    intro s
    subst hop hwords
    simp only [runMdadm, hline]
  have hmuted (words : List Str) : (leadingWords (words.map .word ++ mutedTokens)).1 = words :=
    congrArg Prod.fst (leadingWords_append words (fun _ => Token.noConfusion) _)
  constructor
  · exact fun line device hline => hrun hline
      (congrArg Prod.fst (leadingWords_map [lit "mdadm", lit "--stop", device])) (by
        funext s
        simp [mdadmOperation])
  · exact fun line device hline => hrun hline (hmuted [lit "mdadm", lit "--stop", device]) (by
      funext s
      simp [mdadmOperation])
  · intro line device hline s
    have hzero := @hrun _ _ _ some hline (hmuted [lit "mdadm", lit "--zero-superblock", device]) (by
      funext s
      simp [mdadmOperation, lit_eq])
    rw [hzero s, attempt]
  · intro line array hline
    refine @hrun _ _ ([lit "mdadm", lit "--create", array.device, lit "--level=" ++ array.level,
      lit "--raid-devices=" ++ formatInt array.disks.length] ++ array.disks ++ [lit "--run"]) _
        hline ?_ ?_
    · refine Eq.trans ?_ (congrArg Prod.fst (leadingWords_map _))
      simp only [List.map_append, List.map_cons, List.map_nil]
    · funext s
      simp [mdadmOperation, lit_eq]
  · exact fun line hline => hrun hline
      (congrArg Prod.fst (leadingWords_append [lit "mdadm", lit "--detail", lit "--scan"]
        (fun _ => Token.noConfusion) _)) (by
        funext s
        simp [mdadmOperation, lit_eq])
  · exact fun line script cmd hline hcmd => hrun hline
      (hmuted [lit "sed", lit "-i", script, lit "/etc/mdadm.conf"]) (by
        funext s
        simp [mdadmOperation, lit_eq, hcmd])
  · exact honeLine

/-! ## The menu -/

/-- The entries of the first dialog, and its result. -/
inductive RaidLevel where
  | striping
  | mirroring
  deriving DecidableEq, Repr

/-- `raid_level` -/
def RaidLevel.text : RaidLevel → Str
  | .striping => lit "0"
  | .mirroring => lit "1"

/-- A visit of the menu, with the answers of the user; `diskList` is what `lsblk` lists. -/
inductive RaidVisit where
  | create (level : Option RaidLevel) (diskList : List Str) (diskSelections : List Bool)
    (confirmed : Bool)
  | remove (selected : Nat) (confirmed : Bool)
  deriving DecidableEq, Repr

/-- `selected_disks`: the entries up to their first blank. -/
def selectedDisks (diskList : List Str) (diskSelections : List Bool) : List Str :=
  ((diskList.zip diskSelections).filter Prod.snd).map fun entry => entry.1.takeWhile (· ≠ ' ')

/-- The commands that prepare a disk. -/
def prepareDiskCmds (disk : Str) : List Str :=
  [lit "mdadm --stop " ++ disk ++ lit " 2>/dev/null",
    lit "mdadm --zero-superblock " ++ disk ++ lit " 2>/dev/null"]

def mdadmCmd (raidDevice raidLevel : Str) (selectedDisks : List Str) : Str :=
  lit "mdadm --create " ++ raidDevice ++ lit " --level=" ++ raidLevel ++ lit " --raid-devices=" ++
    formatInt selectedDisks.length ++ [' '] ++ join selectedDisks ' ' ++ lit " --run"

/-- The part of `raid_create_array` after the confirmation. -/
def createArray (exec : Exec Str RaidHost) (raidDevice raidLevel : Str) (selectedDisks : List Str)
    (s : RaidHost) : RaidHost :=
  match exec (mdadmCmd raidDevice raidLevel selectedDisks)
      (runEach exec (selectedDisks.flatMap prepareDiskCmds) s) with
  | (false, s) => s
  | (true, s) => { (exec (lit "mdadm --detail --scan >> /etc/mdadm.conf") s).2 with raid := true }

/-- **`raid_create_array`** -/
def raidCreateArray (exec : Exec Str RaidHost) (level : Option RaidLevel) (diskList : List Str)
    (diskSelections : List Bool) (confirmed : Bool) (s : RaidHost) : RaidHost :=
  match level with
  | none => s
  | some level =>
    if diskList.length < 2 then s
    else if (selectedDisks diskList diskSelections).length < 2 then s
    else
      match raidDeviceName s.listing with
      | .error _ => { s with terminated := true }
      | .ok raidDevice =>
        if !confirmed then s
        else createArray exec raidDevice level.text (selectedDisks diskList diskSelections) s

/-- The command that takes the lines of an array out of the file. -/
def removeLinesCmd (name : Str) : Str :=
  lit "sed -i '/" ++ name ++ lit "/d' /etc/mdadm.conf 2>/dev/null"

/-- **`raid_remove_array`** -/
def raidRemoveArray (exec : Exec Str RaidHost) (selected : Nat) (confirmed : Bool) (s : RaidHost) :
    RaidHost :=
  match (makeMultiline s.listing false '\n')[selected]? with
  | none => s
  | some selectedArray =>
    if !confirmed then s
    else
      match exec (lit "mdadm --stop " ++ selectedArray) s with
      | (false, s) => s
      | (true, s) =>
        match substr selectedArray 5 with
        | .error _ => { s with terminated := true }
        | .ok name => (exec (removeLinesCmd name) s).2

/-- What the tools answer during a visit. -/
structure RaidReplies where
  stoppable : Str → Bool
  usable : MdArray → Bool

/-- One visit after the other, as long as the program runs. -/
def raidMachine (exec : RaidReplies → Exec Str RaidHost) :
    Machine RaidHost (RaidVisit × RaidReplies) Unit where
  step turn s :=
    if s.terminated then ((), s)
    else
      match turn.1 with
      | .create level diskList diskSelections confirmed =>
        ((), raidCreateArray (exec turn.2) level diskList diskSelections confirmed s)
      | .remove selected confirmed => ((), raidRemoveArray (exec turn.2) selected confirmed s)

/-! ## How the lines are read -/

section Lines

variable {disk device level name : Str}

theorem literal_formatInt (n : Int) : Literal (formatInt n) := by
  intro c hc
  rcases isDigit_of_mem_formatInt hc with hdigit | rfl
  · exact special_of_isAlphanum (by simp [Char.isAlphanum, hdigit])
  · decide

theorem parse_muted : parse ('2' :: '>' :: lit "/dev/null") = some mutedTokens := by
  unfold mutedTokens
  repeat rw [lit_ofList]
  decide +kernel

theorem parse_stop (hdevice : LiteralWord device) :
    parse (lit "mdadm --stop " ++ device) =
      some [.word (lit "mdadm"), .word (lit "--stop"), .word device] := by
  have hline : lit "mdadm --stop " ++ device =
      lit "mdadm" ++ ' ' :: (lit "--stop" ++ ' ' :: device) := by
    simp [lit_eq]
  rw [hline, parse_plainWord (by rw [lit_ofList]; decide),
    parse_plainWord (by rw [lit_ofList]; decide), parse_last hdevice.plainWord]
  rfl

theorem parse_prepare {option : Str} (hoption : LiteralWord option) (hdisk : LiteralWord disk) :
    parse (lit "mdadm" ++ ' ' :: (option ++ ' ' :: (disk ++ ' ' :: '2' :: '>' :: lit "/dev/null"))) =
      some ([.word (lit "mdadm"), .word option, .word disk] ++ mutedTokens) := by
  rw [parse_plainWord (by rw [lit_ofList]; decide), parse_plainWord hoption.plainWord,
    parse_plainWord hdisk.plainWord, parse_muted]
  rfl

/-- **The arguments of the command** are the device, the level, the number of disks and the disks. -/
theorem parse_mdadmCmd (hdevice : LiteralWord device) (hlevel : Literal level) {disks : List Str}
    (hne : disks ≠ []) (hdisks : ∀ disk ∈ disks, LiteralWord disk) :
    parse (mdadmCmd device level disks) = some ([.word (lit "mdadm"), .word (lit "--create"),
      .word device, .word (lit "--level=" ++ level),
      .word (lit "--raid-devices=" ++ formatInt disks.length)] ++ disks.map .word ++
        [.word (lit "--run")]) := by
  have hlevel' : LiteralWord (lit "--level=" ++ level) :=
    ⟨by simp [lit_eq], Literal.append (by rw [lit_ofList]; decide) hlevel⟩
  have hnumber : LiteralWord (lit "--raid-devices=" ++ formatInt disks.length) :=
    ⟨by simp [lit_eq], Literal.append (by rw [lit_ofList]; decide) (literal_formatInt _)⟩
  have hline : mdadmCmd device level disks = [' '].intercalate ([lit "mdadm", lit "--create", device,
      lit "--level=" ++ level, lit "--raid-devices=" ++ formatInt disks.length] ++ disks) ++
        ' ' :: lit "--run" := by
    obtain ⟨first, more, rfl⟩ := List.exists_cons_of_ne_nil hne
    simp [mdadmCmd, join_eq, lit_eq, List.intercalate_cons_cons]
  rw [hline, parse_intercalate (by simp), parse_last (by rw [lit_ofList]; decide)]
  · simp
  · intro text htext
    rcases List.mem_append.mp htext with h | h
    · simp only [List.mem_cons, List.not_mem_nil, or_false] at h
      rcases h with rfl | rfl | rfl | rfl | rfl
      · rw [lit_ofList]; decide
      · rw [lit_ofList]; decide
      · exact hdevice.plainWord
      · exact hlevel'.plainWord
      · exact hnumber.plainWord
    · exact (hdisks text h).plainWord

theorem parse_scan : parse (lit "mdadm --detail --scan >> /etc/mdadm.conf") =
    some [.word (lit "mdadm"), .word (lit "--detail"), .word (lit "--scan"),
      .operator ['>', '>'], .word (lit "/etc/mdadm.conf")] := by
  repeat rw [lit_ofList]
  decide +kernel

theorem parse_removeLinesCmd (hname : Quotable name) :
    parse (removeLinesCmd name) = some ([.word (lit "sed"), .word (lit "-i"),
      .word ('/' :: (name ++ '/' :: ['d'])), .word (lit "/etc/mdadm.conf")] ++ mutedTokens) := by
  have hline : removeLinesCmd name = lit "sed" ++ ' ' :: (lit "-i" ++ ' ' ::
      ('\x27' :: ('/' :: (name ++ '/' :: ['d'])) ++ '\x27' :: ' ' ::
        (lit "/etc/mdadm.conf" ++ ' ' :: '2' :: '>' :: lit "/dev/null"))) := by
    simp [removeLinesCmd, lit_eq]
  have hscript : Quotable ('/' :: (name ++ '/' :: ['d'])) := by
    constructor <;> simp [hname.1, hname.2]
  rw [hline, parse_plainWord (by rw [lit_ofList]; decide),
    parse_plainWord (by rw [lit_ofList]; decide), parse_quoted hscript,
    parse_plainWord (by rw [lit_ofList]; decide), parse_muted]
  rfl

end Lines

/-! ## The devices -/

section Devices

/-- The name of an array without the directory. -/
def mdShortName (n : Nat) : Str := lit "md" ++ formatInt n

theorem literalWord_mdName (n : Nat) : LiteralWord (mdName n) :=
  ⟨by simp [mdName, lit_eq], Literal.append (by rw [lit_ofList]; decide) (literal_formatInt n)⟩

theorem substr_mdName (n : Nat) :
    substr (mdName n) 5 = .ok (mdShortName n) := by
  have hlength : ¬ (mdName n).length < 5 := by simp [mdName, lit_eq]
  rw [substr, if_neg hlength, mdName, mdShortName, lit_eq, lit_eq]
  rfl

/-- The script deletes the lines in which the name occurs. -/
theorem parseCommand_removeLines (n : Nat) :
    Sed.parseCommand ('/' :: (mdShortName n ++ '/' :: ['d'])) =
      some (.delete ⟨false, Sed.literals (mdShortName n)⟩) := by
  refine Sed.parseCommand_delete (by simp [mdShortName, lit_eq]) fun c hc => ?_
  rcases List.mem_append.mp hc with h | h
  · have hliteral : ∀ c ∈ lit "md", Sed.patternSpecial c = false ∧ c ≠ '/' := by
      simp [lit_eq, Sed.patternSpecial]
    exact hliteral c h
  · rcases isDigit_of_mem_formatInt h with hdigit | rfl
    · have hnot (d : Char) (hd : d.isDigit = false) : c ≠ d := by
        rintro rfl
        rw [hdigit] at hd
        cases hd
      exact ⟨by simp [Sed.patternSpecial, hnot], hnot '/' rfl⟩
    · decide

end Devices

/-! ## What the entries of the menu do -/

/-- The arrays that still run after the disks of a new array have been prepared. -/
def RaidHost.prepared (stoppable : Str → Bool) (disks : List Str) (s : RaidHost) : RaidHost :=
  { s with arrays := s.arrays.filter fun array =>
      !(decide (array.device ∈ disks) && stoppable array.device) }

section Steps

variable {exec : Exec Str RaidHost} {stoppable : Str → Bool} {usable : MdArray → Bool}
  {details : MdArray → Str} {s : RaidHost}

/-- Stopping what is stopped already changes nothing. -/
theorem snd_stop (device : Str) :
    (attempt (RaidHost.stop stoppable device) s).2 = s.prepared stoppable [device] := by
  have hfilter : (s.arrays.filter fun array =>
      !(decide (array.device ∈ [device]) && stoppable array.device)) =
      if stoppable device = true then s.arrays.filter fun array => array.device ≠ device
      else s.arrays := by
    split_ifs with hstop
    · refine List.filter_congr fun array _ => ?_
      by_cases h : array.device = device <;> simp [h, hstop]
    · rw [List.filter_eq_self]
      intro array _
      by_cases h : array.device = device <;> simp [h, hstop]
  rw [RaidHost.prepared, hfilter, attempt, RaidHost.stop]
  by_cases hstop : stoppable device = true
  · by_cases hmem : device ∈ s.devices
    · rw [if_pos ⟨hmem, hstop⟩, if_pos hstop]
    · have hall : (s.arrays.filter fun array => array.device ≠ device) = s.arrays := by
        rw [List.filter_eq_self]
        exact fun array harray => decide_eq_true fun h => hmem (h ▸ List.mem_map_of_mem harray)
      rw [if_neg fun h => hmem h.1, if_pos hstop, hall]
  · rw [if_neg fun h => hstop h.2, if_neg hstop]

/-- **The disks are prepared**: arrays among them are stopped. -/
theorem runEach_prepareDiskCmds (htools : MdadmTools exec stoppable usable details)
    {disks : List Str} (hdisks : ∀ disk ∈ disks, LiteralWord disk) :
    runEach exec (disks.flatMap prepareDiskCmds) s = s.prepared stoppable disks := by
  induction disks generalizing s with
  | nil => simp [runEach, RaidHost.prepared]
  | cons disk disks ih =>
    obtain ⟨hdisk, hdisks⟩ := List.forall_mem_cons.mp hdisks
    have hlines : prepareDiskCmds disk =
        [lit "mdadm" ++ ' ' :: (lit "--stop" ++ ' ' ::
            (disk ++ ' ' :: '2' :: '>' :: lit "/dev/null")),
          lit "mdadm" ++ ' ' :: (lit "--zero-superblock" ++ ' ' ::
            (disk ++ ' ' :: '2' :: '>' :: lit "/dev/null"))] := by
      simp [prepareDiskCmds, lit_eq]
    have hstop := htools.stopQuietly _ _
      (parse_prepare (show LiteralWord (lit "--stop") by rw [lit_ofList]; decide) hdisk)
    have hzero := htools.zeroSuperblock _ _
      (parse_prepare (show LiteralWord (lit "--zero-superblock") by rw [lit_ofList]; decide) hdisk)
    rw [List.flatMap_cons, runEach, List.foldl_append, hlines]
    simp only [List.foldl_cons, List.foldl_nil, hstop s, hzero, snd_stop]
    refine (ih hdisks).trans ?_
    simp only [RaidHost.prepared, List.filter_filter, List.mem_cons]
    refine congrArg (fun arrays => { s with arrays }) (List.filter_congr fun array _ => ?_)
    rcases eq_or_ne array.device disk with rfl | h
    · cases stoppable array.device <;> simp
    · simp [h]

/-- **An array is created** and the lines of all running arrays join the file, or only the disks are
prepared. -/
theorem createArray_eq (htools : MdadmTools exec stoppable usable details) {array : MdArray}
    (hdevice : LiteralWord array.device) (hlevel : Literal array.level) (hne : array.disks ≠ [])
    (hdisks : ∀ disk ∈ array.disks, LiteralWord disk) :
    createArray exec array.device array.level array.disks s =
      match (s.prepared stoppable array.disks).create usable array with
      | none => s.prepared stoppable array.disks
      | some s' => { s'.appendScan (scanLine details) with raid := true } := by
  have hcreate := htools.create _ array (parse_mdadmCmd hdevice hlevel hne hdisks)
  rw [createArray, runEach_prepareDiskCmds htools hdisks, hcreate, attempt]
  rcases (s.prepared stoppable array.disks).create usable array with _ | s'
  · rfl
  · simp only [htools.scan _ parse_scan s', attempt]

/-- **An array is removed**, with the lines in which its name occurs, or nothing is changed. -/
theorem remove_eq (htools : MdadmTools exec stoppable usable details) (n : Nat) :
    (match exec (lit "mdadm --stop " ++ mdName n) s with
      | (false, s) => s
      | (true, s) =>
        match substr (mdName n) 5 with
        | .error _ => { s with terminated := true }
        | .ok name => (exec (removeLinesCmd name) s).2) =
      match s.stop stoppable (mdName n) with
      | none => s
      | some s' => s'.editConf
          (Sed.Command.delete ⟨false, Sed.literals (mdShortName n)⟩).run := by
  have hquotable : Quotable (mdShortName n) :=
    (Literal.append (show Literal (lit "md") by rw [lit_ofList]; decide)
      (literal_formatInt n)).quotable
  rw [htools.stop _ _ (parse_stop (literalWord_mdName n)), attempt]
  rcases s.stop stoppable (mdName n) with _ | s'
  · rfl
  · simp only [substr_mdName,
      htools.edit _ _ _ (parse_removeLinesCmd hquotable) (parseCommand_removeLines n) s', attempt]

end Steps

/-! ## The file and the arrays -/

/-- **The file agrees with the arrays**: its `ARRAY` lines are the lines of the running arrays. -/
def RaidHost.Agrees (details : MdArray → Str) (s : RaidHost) : Prop :=
  ∀ line, lit "ARRAY " <+: line →
    (line ∈ Sed.textLines s.mdadmConf ↔ ∃ array ∈ s.arrays, scanLine details array = line)

/-- What every visit keeps that keeps the agreement. -/
structure RaidInv (details : MdArray → Str) (s : RaidHost) : Prop where
  agrees : s.Agrees details
  named : ∀ device ∈ s.devices, ∃ n : Nat, device = mdName n
  nodup : s.devices.Nodup
  ended : Sed.unended s.mdadmConf = []

/-- The words of the disks are plain. -/
def RaidVisit.Plain : RaidVisit → Prop
  | .create _ diskList diskSelections _ => ∀ disk ∈ selectedDisks diskList diskSelections, LiteralWord disk
  | .remove _ _ => True

/-- The visit comes to the point where the disks are prepared. -/
def RaidHost.Prepares (s : RaidHost) (level : Option RaidLevel) (diskList : List Str)
    (diskSelections : List Bool) (confirmed : Bool) : Prop :=
  level ≠ none ∧ 2 ≤ diskList.length ∧ 2 ≤ (selectedDisks diskList diskSelections).length ∧
    (∃ raidDevice, raidDeviceName s.listing = .ok raidDevice) ∧ confirmed = true

/-- **What a visit must not do**: choose an array that can be stopped as a disk, and remove an array
whose name occurs in the line of another one. -/
def RaidHost.Careful (stoppable : Str → Bool) (details : MdArray → Str) (visit : RaidVisit)
    (s : RaidHost) : Prop :=
  s.terminated = true ∨
    match visit with
    | .create level diskList diskSelections confirmed =>
      s.Prepares level diskList diskSelections confirmed →
        ∀ array ∈ s.arrays, stoppable array.device = true →
          array.device ∉ selectedDisks diskList diskSelections
    | .remove selected confirmed =>
      ∀ n, (makeMultiline s.listing false '\n')[selected]? = some (mdName n) → confirmed = true →
        stoppable (mdName n) = true → ∀ array ∈ s.arrays, array.device ≠ mdName n →
          ¬ mdShortName n <:+: scanLine details array

section Agreement

variable {exec : Exec Str RaidHost} {stoppable : Str → Bool} {usable : MdArray → Bool}
  {details : MdArray → Str} {s : RaidHost}

/-- The line of an array tells its device. -/
theorem device_eq_of_scanLine_eq {array array' : MdArray} (hdevice : LiteralWord array.device)
    (hdevice' : LiteralWord array'.device) (h : scanLine details array = scanLine details array') :
    array.device = array'.device := by
  have hblank {device : Str} (h : LiteralWord device) : ' ' ∉ device :=
    fun hmem => absurd (h.2.blank _ hmem) (by decide)
  rw [scanLine, scanLine, List.append_assoc, List.append_assoc, List.append_cancel_left_eq] at h
  have hsplit := congrArg (List.splitOn ' ') h
  rw [List.splitOn_append_cons_self_of_not_mem (hblank hdevice),
    List.splitOn_append_cons_self_of_not_mem (hblank hdevice')] at hsplit
  exact (List.cons.inj hsplit).1

theorem infix_scanLine {array : MdArray} {n : Nat} (h : array.device = mdName n) :
    mdShortName n <:+: scanLine details array := by
  refine ⟨lit "ARRAY /dev/", ' ' :: details array, ?_⟩
  simp [scanLine, h, mdName, mdShortName, lit_eq]

theorem not_mem_scanLine (htools : MdadmTools exec stoppable usable details) {array : MdArray}
    (hdevice : LiteralWord array.device) : '\n' ∉ scanLine details array := by
  have hnewline : '\n' ∉ array.device := fun h => absurd (hdevice.2 _ h).1 (by decide)
  simp [scanLine, lit_eq, hnewline, htools.oneLine array]

theorem RaidInv.literalWord (hinv : RaidInv details s) {device : Str} (h : device ∈ s.devices) :
    LiteralWord device := by
  obtain ⟨n, rfl⟩ := hinv.named device h
  exact literalWord_mdName n

/-- **A new array** and the lines of all running arrays keep the invariant. -/
theorem RaidInv.create (htools : MdadmTools exec stoppable usable details) (hinv : RaidInv details s)
    {array : MdArray} (hnamed : ∃ n : Nat, array.device = mdName n) (hnew : array.device ∉ s.devices) :
    RaidInv details
      { { s with arrays := s.arrays ++ [array] }.appendScan (scanLine details) with raid := true } := by
  have hdevices : ∀ array' ∈ s.arrays ++ [array], LiteralWord array'.device := by
    intro array' harray'
    rcases List.mem_append.mp harray' with h | h
    · exact hinv.literalWord (List.mem_map_of_mem h)
    · obtain ⟨n, hn⟩ := hnamed
      rw [List.mem_singleton.mp h, hn]
      exact literalWord_mdName n
  have hscan : ∀ line ∈ (s.arrays ++ [array]).map (scanLine details), '\n' ∉ line := by
    intro line hline
    obtain ⟨array', harray', rfl⟩ := List.mem_map.mp hline
    exact not_mem_scanLine htools (hdevices array' harray')
  obtain ⟨hlines, hended⟩ := Sed.textLines_append hinv.ended hscan
  refine ⟨fun line hline => ?_, fun device hdevice => ?_, ?_, hended⟩
  · simp only [RaidHost.appendScan, hlines, List.mem_append, List.mem_map, hinv.agrees line hline]
    constructor
    · rintro (⟨array', h, rfl⟩ | ⟨array', h, rfl⟩)
      · exact ⟨array', .inl h, rfl⟩
      · exact ⟨array', h, rfl⟩
    · rintro ⟨array', h, rfl⟩
      exact .inr ⟨array', h, rfl⟩
  · simp only [RaidHost.appendScan, RaidHost.devices, List.map_append, List.mem_append, List.map_cons,
      List.map_nil, List.mem_singleton] at hdevice
    rcases hdevice with h | rfl
    · exact hinv.named device h
    · exact hnamed
  · simp only [RaidHost.appendScan, RaidHost.devices, List.map_append, List.map_cons, List.map_nil]
    exact List.nodup_append.mpr ⟨hinv.nodup, List.nodup_singleton _, fun d hd d' hd' h =>
      hnew (List.mem_singleton.mp hd' ▸ h ▸ hd)⟩

/-- A disk that is a running array, and is stopped, leaves its line behind. -/
theorem not_agrees_of_stopped {s' : RaidHost} (hinv : RaidInv details s) {array : MdArray}
    (harray : array ∈ s.arrays) (hgone : ∀ array' ∈ s'.arrays,
      LiteralWord array'.device ∧ array'.device ≠ array.device)
    (hlines : ∀ line ∈ Sed.textLines s.mdadmConf, line ∈ Sed.textLines s'.mdadmConf) :
    ¬ s'.Agrees details := by
  intro hagrees
  have hstarts : lit "ARRAY " <+: scanLine details array := by
    rw [scanLine, List.append_assoc]
    exact List.prefix_append _ _
  have hline := hlines _ ((hinv.agrees _ hstarts).mpr ⟨array, harray, rfl⟩)
  obtain ⟨array', harray', heq⟩ := (hagrees _ hstarts).mp hline
  obtain ⟨hliteral, hne⟩ := hgone array' harray'
  exact hne (device_eq_of_scanLine_eq hliteral
    (hinv.literalWord (List.mem_map_of_mem harray)) heq)

/-- **The lines of a removed array are gone**; the file agrees with the others iff its name occurs in
the line of none. -/
theorem RaidInv.remove (hinv : RaidInv details s) {n : Nat} {s' : RaidHost}
    (hs' : s' = { s with arrays := s.arrays.filter fun array => array.device ≠ mdName n }.editConf
      (Sed.Command.delete ⟨false, Sed.literals (mdShortName n)⟩).run) :
    (s'.Agrees details ↔ ∀ array ∈ s.arrays, array.device ≠ mdName n →
      ¬ mdShortName n <:+: scanLine details array) ∧
    (s'.Agrees details → RaidInv details s') := by
  subst hs'
  have harrays (array : MdArray) :
      array ∈ s.arrays.filter (fun array => array.device ≠ mdName n) ↔
        array ∈ s.arrays ∧ array.device ≠ mdName n := by
    rw [List.mem_filter, decide_eq_true_iff]
  have hstarts (array : MdArray) : lit "ARRAY " <+: scanLine details array := by
    rw [scanLine, List.append_assoc]
    exact List.prefix_append _ _
  refine ⟨⟨fun hagrees array harray hne => ?_, fun hkept line hline => ?_⟩, fun hagrees =>
    ⟨hagrees, fun device hdevice => ?_, ?_, ?_⟩⟩
  · have hline := (hagrees _ (hstarts array)).mpr ⟨array, (harrays array).mpr ⟨harray, hne⟩, rfl⟩
    exact (Sed.mem_textLines_delete.mp hline).2
  · rw [RaidHost.editConf, Sed.mem_textLines_delete, hinv.agrees line hline]
    constructor
    · rintro ⟨⟨array, harray, rfl⟩, hname⟩
      refine ⟨array, (harrays array).mpr ⟨harray, fun h => hname (infix_scanLine h)⟩, rfl⟩
    · rintro ⟨array, harray, rfl⟩
      obtain ⟨harray, hne⟩ := (harrays array).mp harray
      exact ⟨⟨array, harray, rfl⟩, hkept array harray hne⟩
  · exact hinv.named device (((List.filter_sublist).map MdArray.device).subset hdevice)
  · exact hinv.nodup.sublist ((List.filter_sublist).map MdArray.device)
  · exact Sed.unended_editText (Sed.tame_delete _) hinv.ended

end Agreement

/-! ## Runs of the menu -/

section Runs

variable {exec : Exec Str RaidHost} {stoppable : Str → Bool} {usable : MdArray → Bool}
  {details : MdArray → Str} {s : RaidHost}

/-- The devices in the order in which they are listed. -/
theorem makeMultiline_listing (hnamed : ∀ device ∈ s.devices, ∃ n : Nat, device = mdName n) :
    makeMultiline s.listing false '\n' = Sorter.stable.byKey id s.devices := by
  have hliteral : ∀ device ∈ Sorter.stable.byKey id s.devices, LiteralWord device := by
    intro device hdevice
    obtain ⟨n, rfl⟩ := hnamed device ((Sorter.mem_byKey _ _).mp hdevice)
    exact literalWord_mdName n
  have hnewline : ∀ device ∈ Sorter.stable.byKey id s.devices, '\n' ∉ device :=
    fun device hdevice h => absurd ((hliteral device hdevice).2 _ h).1 (by decide)
  refine (makeSplitView_eq _ _).trans ?_
  rw [RaidHost.listing, join_eq, pieces_intercalate hnewline, List.filter_eq_self]
  exact fun device hdevice => decide_eq_true (hliteral device hdevice).1

/-- **The device of a new array** is a device of that kind. -/
theorem exists_raidDeviceName (hnamed : ∀ device ∈ s.devices, ∃ n : Nat, device = mdName n)
    {raidDevice : Str} (h : raidDeviceName s.listing = .ok raidDevice) :
    ∃ n : Nat, raidDevice = mdName n := by
  rw [RaidHost.listing, join_eq] at h
  rcases hsorted : Sorter.stable.byKey id s.devices with _ | ⟨first, others⟩
  · rw [hsorted, List.intercalate_nil, raidDeviceName, if_pos (by rfl)] at h
    refine ⟨0, (Except.ok.inj h).symm.trans ?_⟩
    simp [mdName, lit_eq, formatInt]
  · obtain ⟨n, rfl⟩ := hnamed first ((Sorter.mem_byKey _ _).mp (hsorted ▸ List.mem_cons_self))
    rw [hsorted, intercalate_cons_eq, raidDeviceName_mdName] at h
    · split_ifs at h
      exact ⟨n + 1, (Except.ok.inj h).symm⟩
    · rcases others with _ | ⟨second, others⟩
      · simp
      · rintro c ⟨⟩
        rfl

theorem RaidInv.of_eq {s' : RaidHost} (hinv : RaidInv details s) (harrays : s'.arrays = s.arrays)
    (hconf : s'.mdadmConf = s.mdadmConf) : RaidInv details s' := by
  obtain ⟨arrays, conf, raid, terminated⟩ := s'
  obtain rfl := harrays
  obtain rfl := hconf
  exact ⟨hinv.agrees, hinv.named, hinv.nodup, hinv.ended⟩

/-- A visit that does not come to the disks changes neither the arrays nor the file. -/
theorem raidCreateArray_of_not_prepares {level : Option RaidLevel} {diskList : List Str}
    {diskSelections : List Bool} {confirmed : Bool}
    (h : ¬ s.Prepares level diskList diskSelections confirmed) :
    (raidCreateArray exec level diskList diskSelections confirmed s).arrays = s.arrays ∧
      (raidCreateArray exec level diskList diskSelections confirmed s).mdadmConf = s.mdadmConf := by
  unfold raidCreateArray
  rcases level with _ | level
  · exact ⟨rfl, rfl⟩
  · simp only
    rcases hname : raidDeviceName s.listing with fault | raidDevice
    · split_ifs <;> exact ⟨rfl, rfl⟩
    · cases confirmed with
      | false => split_ifs <;> first | exact ⟨rfl, rfl⟩ | contradiction
      | true =>
        simp only [Bool.not_true, Bool.false_eq_true, if_false]
        split_ifs with hlist hselected
        · exact ⟨rfl, rfl⟩
        · exact ⟨rfl, rfl⟩
        · exact absurd ⟨Option.some_ne_none level, Nat.not_lt.mp hlist,
            Nat.not_lt.mp hselected, ⟨raidDevice, hname⟩, rfl⟩ h

/-- What becomes of the agreement when the disks of an array are prepared and it is created, or not. -/
theorem agrees_created_iff (htools : MdadmTools exec stoppable usable details)
    (hinv : RaidInv details s) {array : MdArray} (hnamed : ∃ n : Nat, array.device = mdName n)
    {s' : RaidHost} (hs' : s' = match (s.prepared stoppable array.disks).create usable array with
      | none => s.prepared stoppable array.disks
      | some s' => { s'.appendScan (scanLine details) with raid := true }) :
    (s'.Agrees details ↔ ∀ array' ∈ s.arrays, stoppable array'.device = true →
      array'.device ∉ array.disks) ∧ (s'.Agrees details → RaidInv details s') := by
  by_cases hcareful : ∀ array' ∈ s.arrays, stoppable array'.device = true → array'.device ∉ array.disks
  · have hprepared : s.prepared stoppable array.disks = s := by
      have hall : (s.arrays.filter fun array' =>
          !(decide (array'.device ∈ array.disks) && stoppable array'.device)) = s.arrays := by
        rw [List.filter_eq_self]
        intro array' harray'
        cases hstop : stoppable array'.device with
        | false => simp
        | true => simp [hcareful array' harray' hstop]
      rw [RaidHost.prepared, hall]
    have hinv' : RaidInv details s' := by
      rw [hs', hprepared, RaidHost.create]
      split_ifs with hnew
      · exact hinv.create htools hnamed hnew.1
      · exact hinv
    exact ⟨iff_of_true hinv'.agrees hcareful, fun _ => hinv'⟩
  · have hnot : ¬ s'.Agrees details := by
      push Not at hcareful
      obtain ⟨stopped, hstopped, hstop, hdisk⟩ := hcareful
      have hrunning : ∀ array' ∈ (s.prepared stoppable array.disks).arrays,
          LiteralWord array'.device ∧ array'.device ≠ stopped.device := by
        intro array' harray'
        obtain ⟨hmem, hkept⟩ := List.mem_filter.mp harray'
        refine ⟨hinv.literalWord (List.mem_map_of_mem hmem), fun h => ?_⟩
        simp [h, hdisk, hstop] at hkept
      rcases hcreate : (s.prepared stoppable array.disks).create usable array with _ | s₁
      · rw [hcreate] at hs'
        exact not_agrees_of_stopped hinv hstopped (hs' ▸ hrunning) (hs' ▸ fun _ h => h)
      · rw [hcreate] at hs'
        obtain ⟨⟨-, hother, -⟩, hsome⟩ := Option.ite_none_right_eq_some.mp hcreate
        obtain rfl := Option.some.inj hsome
        have hall : ∀ array' ∈ (s.prepared stoppable array.disks).arrays ++ [array],
            LiteralWord array'.device ∧ array'.device ≠ stopped.device := by
          intro array' harray'
          rcases List.mem_append.mp harray' with h | h
          · exact hrunning array' h
          · obtain rfl := List.mem_singleton.mp h
            obtain ⟨n, hn⟩ := hnamed
            exact ⟨hn ▸ literalWord_mdName n, fun h => hother (h ▸ hdisk)⟩
        have hscan : ∀ line ∈ ((s.prepared stoppable array.disks).arrays ++ [array]).map
            (scanLine details), '\n' ∉ line := by
          intro line hline
          obtain ⟨array', harray', rfl⟩ := List.mem_map.mp hline
          exact not_mem_scanLine htools (hall array' harray').1
        refine not_agrees_of_stopped hinv hstopped (hs' ▸ hall) fun line hline => ?_
        rw [hs']
        exact (Sed.textLines_append hinv.ended hscan).1 ▸ List.mem_append_left _ hline
    exact ⟨iff_of_false hnot hcareful, fun h => absurd h hnot⟩

/-- A visit that creates an array, in a state of the invariant. -/
theorem agrees_create_iff (htools : MdadmTools exec stoppable usable details)
    (hinv : RaidInv details s) (level : Option RaidLevel) (diskList : List Str)
    (diskSelections : List Bool) (confirmed : Bool)
    (hdisks : ∀ disk ∈ selectedDisks diskList diskSelections, LiteralWord disk) :
    ((raidCreateArray exec level diskList diskSelections confirmed s).Agrees details ↔
      (s.Prepares level diskList diskSelections confirmed → ∀ array ∈ s.arrays,
        stoppable array.device = true → array.device ∉ selectedDisks diskList diskSelections)) ∧
    ((raidCreateArray exec level diskList diskSelections confirmed s).Agrees details →
      RaidInv details (raidCreateArray exec level diskList diskSelections confirmed s)) := by
  by_cases hprepares : s.Prepares level diskList diskSelections confirmed
  · obtain ⟨hlevel, hlist, hselected, ⟨raidDevice, hname⟩, rfl⟩ := hprepares
    obtain ⟨level, rfl⟩ := Option.ne_none_iff_exists'.mp hlevel
    obtain ⟨n, rfl⟩ := exists_raidDeviceName hinv.named hname
    have hne : selectedDisks diskList diskSelections ≠ [] := fun h => by
      rw [h] at hselected
      exact absurd hselected (by decide)
    have hprepares : s.Prepares (some level) diskList diskSelections true :=
      ⟨hlevel, hlist, hselected, ⟨_, hname⟩, rfl⟩
    have hcreate : raidCreateArray exec (some level) diskList diskSelections true s =
        createArray exec (mdName n) level.text (selectedDisks diskList diskSelections) s := by
      simp only [raidCreateArray, Nat.not_lt.mpr hlist, Nat.not_lt.mpr hselected, if_false, hname,
        Bool.not_true, Bool.false_eq_true]
    have hliteral : Literal level.text := by
      cases level <;>
      · simp only [RaidLevel.text]
        rw [lit_ofList]
        decide
    have hcreated := @createArray_eq _ _ _ _ s htools
      ⟨mdName n, level.text, selectedDisks diskList diskSelections⟩
      (literalWord_mdName n) hliteral hne hdisks
    simp only [hcreate, hprepares, true_imp_iff]
    exact agrees_created_iff htools hinv ⟨n, rfl⟩ hcreated
  · have hsame := @raidCreateArray_of_not_prepares exec s _ _ _ _ hprepares
    exact ⟨iff_of_true (hinv.of_eq hsame.1 hsame.2).agrees fun h => absurd h hprepares,
      fun _ => hinv.of_eq hsame.1 hsame.2⟩

/-- A visit that removes an array, in a state of the invariant. -/
theorem agrees_remove_iff (htools : MdadmTools exec stoppable usable details)
    (hinv : RaidInv details s) (selected : Nat) (confirmed : Bool) :
    ((raidRemoveArray exec selected confirmed s).Agrees details ↔
      ∀ n, (makeMultiline s.listing false '\n')[selected]? = some (mdName n) → confirmed = true →
        stoppable (mdName n) = true → ∀ array ∈ s.arrays, array.device ≠ mdName n →
          ¬ mdShortName n <:+: scanLine details array) ∧
    ((raidRemoveArray exec selected confirmed s).Agrees details →
      RaidInv details (raidRemoveArray exec selected confirmed s)) := by
  rw [raidRemoveArray]
  rcases hselected : (makeMultiline s.listing false '\n')[selected]? with _ | device
  · exact ⟨iff_of_true hinv.agrees (fun n h => by cases h), fun _ => hinv⟩
  have hdevice : device ∈ s.devices := by
    have hmem := List.mem_of_getElem? hselected
    rwa [makeMultiline_listing hinv.named, Sorter.mem_byKey] at hmem
  obtain ⟨n, rfl⟩ := hinv.named device hdevice
  cases confirmed with
  | false => exact ⟨iff_of_true hinv.agrees (fun _ _ h => by cases h), fun _ => hinv⟩
  | true =>
    have hremove := @remove_eq exec stoppable usable details s htools n
    simp only [Bool.not_true, Bool.false_eq_true, if_false, hremove, Option.some.injEq, true_imp_iff]
    by_cases hstop : stoppable (mdName n) = true
    · have hs' : s.stop stoppable (mdName n) =
          some { s with arrays := s.arrays.filter fun array => array.device ≠ mdName n } :=
        if_pos ⟨hdevice, hstop⟩
      obtain ⟨hiff, hkeep⟩ := hinv.remove rfl
      rw [hs']
      refine ⟨hiff.trans ⟨fun h m hm _ => ?_, fun h => h n rfl hstop⟩, hkeep⟩
      obtain rfl := mdName_injective hm
      exact h
    · have hs' : s.stop stoppable (mdName n) = none := if_neg fun h => hstop h.2
      rw [hs']
      refine ⟨iff_of_true hinv.agrees fun m hm h => ?_, fun _ => hinv⟩
      exact absurd (mdName_injective hm ▸ h) hstop

/-- **Along which runs the file agrees with the arrays**: those that never choose a running array as a
disk, and never remove an array whose name occurs in the line of another. -/
theorem raid_agrees_iff {exec : RaidReplies → Exec Str RaidHost}
    (htools : ∀ replies, MdadmTools (exec replies) replies.stoppable replies.usable details)
    {turns : List (RaidVisit × RaidReplies)} (hplain : ∀ turn ∈ turns, turn.1.Plain)
    (hinv : RaidInv details s) :
    (raidMachine exec).Throughout (RaidHost.Agrees details) turns s ↔
      (raidMachine exec).Along (fun turn => RaidHost.Careful turn.2.stoppable details turn.1)
        turns s := by
  have hlegal : (raidMachine exec).Along (fun turn _ => turn.1.Plain) turns s := by
    clear hinv
    induction turns generalizing s with
    | nil => trivial
    | cons turn turns ih =>
      exact ⟨hplain turn List.mem_cons_self, ih fun v hv => hplain v (List.mem_cons_of_mem _ hv)⟩
  have hstep : ∀ (turn : RaidVisit × RaidReplies) s, RaidInv details s → turn.1.Plain →
      (((raidMachine exec).step turn s).2.Agrees details ↔
          s.Careful turn.2.stoppable details turn.1) ∧
        (((raidMachine exec).step turn s).2.Agrees details →
          RaidInv details ((raidMachine exec).step turn s).2) := by
    rintro ⟨visit, replies⟩ s hinv hplain
    by_cases hterminated : s.terminated = true
    · have hs : ((raidMachine exec).step (visit, replies) s).2 = s := by
        simp [raidMachine, hterminated]
      rw [hs]
      exact ⟨iff_of_true hinv.agrees (.inl hterminated), fun _ => hinv⟩
    · cases visit with
      | create level diskList diskSelections confirmed =>
        have hs : ((raidMachine exec).step
            (.create level diskList diskSelections confirmed, replies) s).2 =
              raidCreateArray (exec replies) level diskList diskSelections confirmed s := by
          simp [raidMachine, hterminated]
        rw [hs, RaidHost.Careful, or_iff_right hterminated]
        exact agrees_create_iff (htools replies) hinv level diskList diskSelections confirmed hplain
      | remove selected confirmed =>
        have hs : ((raidMachine exec).step (.remove selected confirmed, replies) s).2 =
            raidRemoveArray (exec replies) selected confirmed s := by
          simp [raidMachine, hterminated]
        rw [hs, RaidHost.Careful, or_iff_right hterminated]
        exact agrees_remove_iff (htools replies) hinv selected confirmed
  exact Machine.Throughout.iff_along (fun _ hinv => hinv.agrees)
    (fun turn s hinv hplain hcareful => (hstep turn s hinv hplain).2
      ((hstep turn s hinv hplain).1.mpr hcareful))
    (fun turn s hinv hplain hagrees => (hstep turn s hinv hplain).1.mp hagrees) hlegal hinv

/-- An array of two disks is created; it can be removed when it is no longer in use. -/
def createAndRemove : List (RaidVisit × RaidReplies) :=
  [(.create (some .striping) [lit "/dev/sda (1T)", lit "/dev/sdb (1T)"] [true, true] true,
      ⟨fun _ => true, fun _ => true⟩),
    (.remove 0 true, ⟨fun _ => false, fun _ => true⟩),
    (.remove 0 true, ⟨fun _ => true, fun _ => true⟩)]

theorem raid_agrees_createAndRemove :
    (raidMachine fun replies => runMdadm replies.stoppable replies.usable fun _ => []).Throughout
        (RaidHost.Agrees fun _ => []) createAndRemove ⟨[], [], false, false⟩ ↔
      (raidMachine fun replies => runMdadm replies.stoppable replies.usable fun _ => []).Along
        (fun turn => RaidHost.Careful turn.2.stoppable (fun _ => []) turn.1) createAndRemove
        ⟨[], [], false, false⟩ := by
  have hdisks : ∀ disk ∈ selectedDisks [lit "/dev/sda (1T)", lit "/dev/sdb (1T)"] [true, true],
      LiteralWord disk := by
    repeat rw [lit_ofList]
    decide
  refine raid_agrees_iff (fun _ => mdadmTools _ _ fun _ => List.not_mem_nil) ?_ ⟨?_, ?_, ?_, rfl⟩
  · exact List.forall_mem_cons.mpr ⟨hdisks,
      List.forall_mem_cons.mpr ⟨trivial, List.forall_mem_singleton.mpr trivial⟩⟩
  · exact fun line _ => by simp [Sed.textLines, Sed.ended, Sed.unended]
  · simp [RaidHost.devices]
  · simp [RaidHost.devices]

end Runs

end CliInstaller
