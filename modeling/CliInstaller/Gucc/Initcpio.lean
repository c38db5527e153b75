import CliInstaller.Cpp.Files
import CliInstaller.Gucc.StringUtils

/-!
# `gucc::detail::Initcpio`: editing mkinitcpio.conf

An `Initcpio` object holds the three lists it last read from its file. Every operation parses the
file, edits one list in memory, and writes the three assignments back into their lines.

Source: `gucc/include/gucc/initcpio.hpp`, `gucc/src/initcpio.cpp`.

## Main definitions

* `Field`: the three variables; `Initcpio`: the object
* `parseLine`, `parseFile`: reading the lists
* `modifyInitcpioLine`, `modifyInitcpioFields`, `write`: writing them
* `Session`: an object at work on a file system; `appendModule` … `removeHook`: the operations
-/

namespace CliInstaller

open Splitting

/-- The variables of mkinitcpio.conf that are edited. -/
inductive Field where
  | modules
  | files
  | hooks
  deriving DecidableEq, Repr

/-- The name a variable has in the file. -/
def Field.name : Field → Str
  | .modules => lit "MODULES"
  | .files => lit "FILES"
  | .hooks => lit "HOOKS"

/-- The object: its path and the lists in memory. -/
structure Initcpio where
  filePath : Str
  modules : List Str
  files : List Str
  hooks : List Str
  deriving DecidableEq, Repr

namespace Initcpio

/-- A freshly constructed object. -/
def new (filePath : Str) : Initcpio := ⟨filePath, [], [], []⟩

/-- The list of a variable. -/
def list (self : Initcpio) : Field → List Str
  | .modules => self.modules
  | .files => self.files
  | .hooks => self.hooks

/-- Replace the list of a variable. -/
def setList (self : Initcpio) : Field → List Str → Initcpio
  | .modules, l => { self with modules := l }
  | .files, l => { self with files := l }
  | .hooks, l => { self with hooks := l }

@[simp] theorem list_setList_self (self : Initcpio) (f : Field) (l : List Str) :
    (self.setList f l).list f = l := by cases f <;> rfl

theorem list_setList_of_ne (self : Initcpio) {f g : Field} (h : g ≠ f) (l : List Str) :
    (self.setList f l).list g = self.list g := by
  cases f <;> cases g <;> first | rfl | exact absurd rfl h

@[simp] theorem filePath_setList (self : Initcpio) (f : Field) (l : List Str) :
    (self.setList f l).filePath = self.filePath := by cases f <;> rfl

end Initcpio

/-! ## Reading -/

/-- The words between the first opening and the first closing bracket. The length passed to
`substr` is unsigned: a closing bracket before the opening one takes the rest of the line. -/
def parseLine (line : Str) : List Str :=
  match line.idxOf? '(', line.idxOf? ')' with
  | some openBracketPos, some closeBracket =>
    let inputData := line.drop (openBracketPos + 1)
    splitView ' ' <|
      if closeBracket < openBracketPos then inputData
      else inputData.take (closeBracket - 1 - openBracketPos)
  | _, _ => []

/-- The variable a line assigns, judged by its first characters. -/
def lineField (line : Str) : Option Field :=
  if startsWith line (Field.name .modules) then some .modules
  else if startsWith line (Field.name .files) then some .files
  else if startsWith line (Field.name .hooks) then some .hooks
  else none

namespace Initcpio

/-- The body of the loop over the lines. -/
def parseStep (self : Initcpio) (line : Str) : Initcpio :=
  match lineField line with
  | some f => self.setList f (parseLine line)
  | none => self

/-- `Initcpio::parse_file` -/
def parseFile (self : Initcpio) (fs : FileSystem) : Bool × Initcpio :=
  if !fs.fileExists self.filePath then (false, self)
  else
    let fileContent := readWholeFile fs self.filePath
    if fileContent.isEmpty then (false, self)
    else (true, (makeSplitView fileContent '\n').foldl parseStep self)

end Initcpio

/-! ## Writing -/

/-- The line that assigns a variable. -/
def assignment (f : Field) (value : Str) : Str := f.name ++ ['=', '('] ++ value ++ [')']

def modifyInitcpioLine (line modules files hooks : Str) : Str :=
  match lineField line with
  | some .modules => assignment .modules modules
  | some .files => assignment .files files
  | some .hooks => assignment .hooks hooks
  | none => line

/-- The loop of `modify_initcpio_fields`: a newline before every line but the first. -/
def joinLines (transformedLines : List Str) : Str :=
  (transformedLines.foldl
    (fun (resultStr, firstLine) lineStr =>
      ((if firstLine then resultStr else resultStr ++ ['\n']) ++ lineStr, false))
    (([] : Str), true)).1

def modifyInitcpioFields (fileContent modules files hooks : Str) : Str :=
  joinLines <|
    (splitView '\n' fileContent).map fun line => modifyInitcpioLine line modules files hooks

/-- `Initcpio::write` -/
def Initcpio.write (self : Initcpio) (fs : FileSystem) : Bool × FileSystem :=
  if !fs.fileExists self.filePath then (false, fs)
  else
    let fileContent := readWholeFile fs self.filePath
    if fileContent.isEmpty then (false, fs)
    else
      createFileForOverwrite fs self.filePath <|
        modifyInitcpioFields fileContent (join self.modules ' ') (join self.files ' ')
          (join self.hooks ' ')

/-! ## The operations -/

/-- An object at work on a file system. -/
structure Session where
  fs : FileSystem
  obj : Initcpio

namespace Session

/-- Parse, then edit one list and write the file; an edit that is refused returns `false` after
parsing. This is the shape of every operation. -/
def edit (f : Field) (change : List Str → Option (List Str)) (s : Session) : Bool × Session :=
  let (parsed, obj) := s.obj.parseFile s.fs
  if !parsed then (false, { s with obj })
  else
    match change (obj.list f) with
    -- The lists that were parsed stay in memory; the file is not written.
    | none => (false, { s with obj })
    | some l =>
      let obj := obj.setList f l
      let (written, fs) := obj.write s.fs
      (written, { fs, obj })

/-- Append an element that is not yet there. -/
def append (f : Field) (elem : Str) : Session → Bool × Session :=
  edit f fun l => if l.contains elem then none else some (l ++ [elem])

/-- Erase the first occurrence of an element. -/
def remove (f : Field) (elem : Str) : Session → Bool × Session :=
  edit f fun l =>
    let needlePos := l.idxOf elem
    if needlePos = l.length then none else some (l.eraseIdx needlePos)

/-- `std::vector::insert` at an iterator. -/
def insertAt (l : List Str) (pos : Nat) (elems : List Str) : List Str :=
  l.take pos ++ elems ++ l.drop pos

def appendModule (module : Str) : Session → Bool × Session := append .modules module

def appendFile (file : Str) : Session → Bool × Session := append .files file

def appendHook (hook : Str) : Session → Bool × Session := append .hooks hook

def appendHooks (hook : List Str) : Session → Bool × Session :=
  edit .hooks fun hooks =>
    let toAdd := hook.filter fun el => !hooks.contains el
    if toAdd.isEmpty then none else some (insertAt hooks hooks.length toAdd)

/-- `insert_hook` with one hook -/
def insertHook (needle hook : Str) : Session → Bool × Session :=
  edit .hooks fun hooks =>
    if hooks.contains hook then none else some (insertAt hooks (hooks.idxOf needle) [hook])

/-- `insert_hook` with a vector of hooks -/
def insertHooks (needle : Str) (hook : List Str) : Session → Bool × Session :=
  edit .hooks fun hooks =>
    let toAdd := hook.filter fun el => !hooks.contains el
    if toAdd.isEmpty then none else some (insertAt hooks (hooks.idxOf needle) toAdd)

def removeModule (module : Str) : Session → Bool × Session := remove .modules module

def removeHook (hook : Str) : Session → Bool × Session := remove .hooks hook

end Session

end CliInstaller
