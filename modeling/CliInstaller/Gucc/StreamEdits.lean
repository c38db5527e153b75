import CliInstaller.Cpp.Files
import CliInstaller.General.Commands
import CliInstaller.General.Sed
import CliInstaller.General.Shell
import CliInstaller.Gucc.StringUtils

/-!
# Files that `sed -i` edits

Several functions edit a file by a script that they give to `sed -i` on a command line. The shell
reads the script out of its quotes; the editor applies the command that the script denotes to every
line of the file, if the file is there and can be replaced.

## Main definitions

* `FileSystem.edit`: an edit of each line of a file
* `sedQuoted`, `sedDoubleQuoted`: the command lines
* `FilesOf`: the files of a state
* `SedTool`: what the editor does, in terms of the tokens of a line
* `EditScript`: a script that edits each line by a function

## Main results

* `SedTool.quoted`, `SedTool.doubleQuoted`: a command line carries out the edit of its script
* `SedTool.runEach_quoted`: scripts in turn, whose outcomes are not checked, are one edit
-/

namespace CliInstaller

open Shell Commands

namespace FileSystem

variable {f g : Str → Option Str} {path : Str} {fs : FileSystem}

/-- An edit of each line of a file, which must be there. -/
def edit (f : Str → Option Str) (path : Str) (fs : FileSystem) : Option FileSystem :=
  if fs.readable path && fs.writable path then
    (fs.content path).map fun text => fs.set path (some (Sed.editText f text))
  else none

/-- An edit whose outcome is not checked: a file that cannot be edited stays as it is. -/
def editIfThere (f : Str → Option Str) (path : Str) (fs : FileSystem) : FileSystem :=
  (fs.edit f path).getD fs

/-- The file can be edited. -/
def Editable (fs : FileSystem) (path : Str) : Prop :=
  fs.readable path = true ∧ fs.writable path = true

theorem editIfThere_of_content {text : Str} (hedit : fs.Editable path)
    (htext : fs.content path = some text) :
    fs.editIfThere f path = fs.set path (some (Sed.editText f text)) := by
  simp [editIfThere, edit, hedit.1, hedit.2, htext]

theorem content_editIfThere (hedit : fs.Editable path) :
    (fs.editIfThere f path).content path = (fs.content path).map (Sed.editText f) := by
  rcases htext : fs.content path with _ | text
  · simp [editIfThere, edit, htext]
  · rw [editIfThere_of_content hedit htext, content_set_self, Option.map_some]

/-- The other files stay as they are. -/
theorem content_editIfThere_of_ne {p : Str} (hp : p ≠ path) :
    (fs.editIfThere f path).content p = fs.content p := by
  unfold editIfThere edit
  split_ifs
  · rcases fs.content path with _ | text
    · rfl
    · exact content_set_of_ne _ _ hp
  · rfl

theorem editable_editIfThere {p : Str} : (fs.editIfThere f path).Editable p ↔ fs.Editable p := by
  unfold editIfThere edit
  split_ifs
  · rcases fs.content path with _ | text <;> rfl
  · rfl

/-- An edit that changes no line changes nothing. -/
theorem editIfThere_some : fs.editIfThere some path = fs := by
  unfold editIfThere edit
  split_ifs
  · rcases htext : fs.content path with _ | text
    · rfl
    · have hsame : Sed.editText some text = text := by
        rw [Sed.editText, List.filterMap_some]
        conv_rhs => rw [← Sed.unlines_ended_unended text]
        split_ifs with hlast
        · rw [hlast]
        · rfl
      rw [Option.map_some, hsame, Option.getD_some]
      exact set_content_self htext
  · rfl

/-- **Two edits of one file in turn** are one edit. -/
theorem editIfThere_editIfThere (hf : Sed.Tame f) :
    (fs.editIfThere f path).editIfThere g path =
      fs.editIfThere (fun line => (f line).bind g) path := by
  by_cases hedit : fs.readable path = true ∧ fs.writable path = true
  · rcases htext : fs.content path with _ | text
    · simp [editIfThere, edit, htext]
    · have hnext := @editIfThere_of_content g path (fs.set path (some (Sed.editText f text))) _
        hedit (content_set_self _ _ _)
      rw [editIfThere_of_content hedit htext, hnext, editIfThere_of_content hedit htext, set_set,
        Sed.editText_editText hf]
  · have hnone : (fs.readable path && fs.writable path) = false := by
      rwa [← Bool.and_eq_true, Bool.not_eq_true] at hedit
    simp [editIfThere, edit, hnone]

end FileSystem

/-! ## The command lines -/

/-- The output of a command as `utils::exec` returns it: without the last newline. -/
def execOutput (output : Str) : Str := if output.getLast? = some '\n' then output.dropLast else output

/-- The lines of an output do not depend on its last newline. -/
theorem makeMultiline_execOutput (output : Str) :
    makeMultiline (execOutput output) false '\n' = Splitting.pieces '\n' output := by
  unfold execOutput
  split_ifs with hlast
  · obtain ⟨text, rfl⟩ := List.getLast?_eq_some_iff.mp hlast
    rw [List.dropLast_concat, Splitting.pieces_concat_self]
    exact makeSplitView_eq text '\n'
  · exact makeSplitView_eq output '\n'

/-- `sed -i '{script}' {path}` -/
def sedQuoted (script path : Str) : Str :=
  lit "sed -i '" ++ script ++ lit "' " ++ path

/-- `sed -i "{script}" {path}` -/
def sedDoubleQuoted (script path : Str) : Str :=
  lit "sed -i \x22" ++ script ++ lit "\x22 " ++ path

section Reading

variable {script path : Str}

theorem parse_sedQuoted (hscript : Quotable script) (hpath : PlainWord path) :
    parse (sedQuoted script path) =
      some [.word (lit "sed"), .word (lit "-i"), .word script, .word path] := by
  have hline : sedQuoted script path =
      lit "sed" ++ ' ' :: (lit "-i" ++ ' ' :: ('\x27' :: script ++ '\x27' :: ' ' :: path)) := by
    simp [sedQuoted, lit_eq]
  rw [hline, parse_plainWord (by rw [lit_ofList]; decide),
    parse_plainWord (by rw [lit_ofList]; decide), parse_quoted hscript, parse_last hpath]
  rfl

theorem parse_sedDoubleQuoted (hscript : DoubleQuotable script) (hnul : '\x00' ∉ script)
    (hpath : PlainWord path) :
    parse (sedDoubleQuoted script path) =
      some [.word (lit "sed"), .word (lit "-i"), .word script, .word path] := by
  have hline : sedDoubleQuoted script path =
      lit "sed" ++ ' ' :: (lit "-i" ++ ' ' :: ('\x22' :: script ++ '\x22' :: ' ' :: path)) := by
    simp [sedDoubleQuoted, lit_eq]
  rw [hline, parse_plainWord (by rw [lit_ofList]; decide),
    parse_plainWord (by rw [lit_ofList]; decide), parse_doubleQuoted hscript hnul,
    parse_last hpath]
  rfl

end Reading

/-- The files of a state. -/
structure FilesOf (σ : Type) where
  files : σ → FileSystem
  withFiles : FileSystem → σ → σ
  files_withFiles : ∀ fs s, files (withFiles fs s) = fs
  withFiles_files : ∀ s, withFiles (files s) s = s
  withFiles_withFiles : ∀ fs fs' s, withFiles fs (withFiles fs' s) = withFiles fs s

/-- An operation on the files of a state. -/
def FilesOf.on {σ : Type} (F : FilesOf σ) (op : FileSystem → Option FileSystem) (s : σ) : Option σ :=
  (op (F.files s)).map fun fs => F.withFiles fs s

/-- A state that is nothing but files. -/
def FilesOf.self : FilesOf FileSystem := ⟨id, fun fs _ => fs, fun _ _ => rfl, fun _ => rfl, fun _ _ _ => rfl⟩

/-- **What the stream editor does**, for the scripts whose meaning is described. -/
structure SedTool {σ : Type} (exec : Exec Str σ) (F : FilesOf σ) : Prop where
  edits : ∀ line script path cmd,
    parse line = some [.word (lit "sed"), .word (lit "-i"), .word script, .word path] →
      Sed.parseCommand script = some cmd → CarriesOut exec line (F.on (·.edit cmd.run path))
  /-- the script as an option -/
  editsOption : ∀ line script path cmd,
    parse line = some [.word (lit "sed"), .word (lit "-e"), .word script, .word (lit "-i"),
      .word path] →
      Sed.parseCommand script = some cmd → CarriesOut exec line (F.on (·.edit cmd.run path))

/-- A script, in quotes, that edits each line by the function. -/
structure EditScript (script : Str) (f : Str → Str) : Prop where
  quotable : Quotable script
  edits : ∃ cmd, Sed.parseCommand script = some cmd ∧ cmd.run = fun line => some (f line)
  tame : Sed.Tame fun line => some (f line)

namespace SedTool

variable {σ : Type} {exec : Exec Str σ} {F : FilesOf σ} {script path : Str} {s : σ}

/-- **A script in quotes** is carried out. -/
theorem quoted (htool : SedTool exec F) (hscript : Quotable script) (hpath : PlainWord path)
    {cmd : Sed.Command} (hcmd : Sed.parseCommand script = some cmd) :
    CarriesOut exec (sedQuoted script path) (F.on (·.edit cmd.run path)) :=
  htool.edits _ _ _ _ (parse_sedQuoted hscript hpath) hcmd

/-- **A script in double quotes** is carried out. -/
theorem doubleQuoted (htool : SedTool exec F) (hscript : DoubleQuotable script)
    (hnul : '\x00' ∉ script) (hpath : PlainWord path) {cmd : Sed.Command}
    (hcmd : Sed.parseCommand script = some cmd) :
    CarriesOut exec (sedDoubleQuoted script path) (F.on (·.edit cmd.run path)) :=
  htool.edits _ _ _ _ (parse_sedDoubleQuoted hscript hnul hpath) hcmd

/-- A command that edits a file, without a look at its outcome. -/
theorem snd_edit {line : Str} {f : Str → Option Str}
    (h : CarriesOut exec line (F.on (·.edit f path))) :
    (exec line s).2 = F.withFiles ((F.files s).editIfThere f path) s := by
  rw [h s, attempt, FilesOf.on, FileSystem.editIfThere]
  rcases (F.files s).edit f path with _ | fs
  · exact (F.withFiles_files s).symm
  · rfl

/-- **Scripts in turn**, whose outcomes are not checked, are one edit of the file. -/
theorem runEach_quoted (htool : SedTool exec F) (hpath : PlainWord path) {scripts : List Str}
    {fs : List (Str → Str)} (h : List.Forall₂ EditScript scripts fs) :
    runEach exec (scripts.map (sedQuoted · path)) s =
      F.withFiles ((F.files s).editIfThere
        (fun line => some (fs.foldl (fun line f => f line) line)) path) s := by
  induction h generalizing s with
  | nil =>
    have hsame : F.withFiles ((F.files s).editIfThere some path) s = s := by
      rw [FileSystem.editIfThere_some, F.withFiles_files]
    exact hsame.symm
  | @cons script f scripts fs hscript _ ih =>
    obtain ⟨cmd, hcmd, hrun⟩ := hscript.edits
    have hfirst := @snd_edit _ _ _ _ s _ _ (htool.quoted hscript.quotable hpath hcmd)
    rw [hrun] at hfirst
    rw [List.map_cons, runEach, List.foldl_cons, hfirst, ← runEach, ih, F.files_withFiles,
      F.withFiles_withFiles, FileSystem.editIfThere_editIfThere hscript.tame]
    rfl

end SedTool

/-! ## An editor that does what it is said to do -/

/-- The command and the file, if the tokens are those of the editor. -/
def sedCommand : List Token → Option (Sed.Command × Str)
  | [.word program, .word option, .word script, .word path] =>
    if program = lit "sed" ∧ option = lit "-i" then
      (Sed.parseCommand script).map fun cmd => (cmd, path)
    else none
  | [.word program, .word option, .word script, .word option', .word path] =>
    if program = lit "sed" ∧ option = lit "-e" ∧ option' = lit "-i" then
      (Sed.parseCommand script).map fun cmd => (cmd, path)
    else none
  | _ => none

/-- A line of another program is none of the editor. -/
theorem sedCommand_of_ne {program rest : Str} (hprogram : PlainWord program)
    (hne : program ≠ lit "sed") : (parse (program ++ ' ' :: rest)).bind sedCommand = none := by
  rw [parse_plainWord hprogram]
  rcases parse rest with _ | tokens
  · rfl
  · rw [Option.map_some, Option.bind_some]
    unfold sedCommand
    split
    · next h => exact if_neg fun hsed => hne ((Token.word.inj (List.cons.inj h).1).trans hsed.1)
    · next h => exact if_neg fun hsed => hne ((Token.word.inj (List.cons.inj h).1).trans hsed.1)
    · rfl

/-- A shell with this editor; the other lines are run by `exec`. -/
def runSed {σ : Type} (F : FilesOf σ) (exec : Exec Str σ) (line : Str) : σ → Bool × σ :=
  match (parse line).bind sedCommand with
  | some (cmd, path) => attempt (F.on (·.edit cmd.run path))
  | none => exec line

/-- **The editor does what it is said to do**, in this shell. -/
theorem sedTool {σ : Type} (F : FilesOf σ) (exec : Exec Str σ) : SedTool (runSed F exec) F where
  edits line script path cmd hline hcmd s := by
    simp only [runSed, hline, Option.bind_some, sedCommand, hcmd, and_self, if_true, Option.map_some]
  editsOption line script path cmd hline hcmd s := by
    simp only [runSed, hline, Option.bind_some, sedCommand, hcmd, and_self, if_true, Option.map_some]

end CliInstaller
