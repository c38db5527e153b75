import CliInstaller.Cpp.Runtime

/-!
# Files

A file system gives each path a content, if there is a file, and says whether opening the path for
reading or writing succeeds. Reading a whole file gives the empty text on any failure; writing
truncates, and creates the file if there is none.

## Main definitions

* `FileSystem`: contents, and which paths can be opened
* `readWholeFile`, `createFileForOverwrite`: the two helpers every editor of a file uses
* `copyFile`, `rename`: the library calls, each with whether it succeeds where it can
-/

namespace CliInstaller

/-- The files, and whether opening a path succeeds. -/
structure FileSystem where
  content : Str → Option Str
  readable : Str → Bool
  writable : Str → Bool

namespace FileSystem

/-- `fs::exists` -/
def fileExists (fs : FileSystem) (path : Str) : Bool := (fs.content path).isSome

/-- Replace what a path holds. -/
def set (fs : FileSystem) (path : Str) (data : Option Str) : FileSystem :=
  { fs with content := fun p => if p = path then data else fs.content p }

/-- The file system that holds one file, and where every path can be opened. -/
def single (path data : Str) : FileSystem where
  content p := if p = path then some data else none
  readable _ := true
  writable _ := true

@[simp] theorem content_single (path data : Str) : (single path data).content path = some data :=
  if_pos rfl

@[simp] theorem content_set_self (fs : FileSystem) (path : Str) (data : Option Str) :
    (fs.set path data).content path = data := if_pos rfl

theorem content_set_of_ne (fs : FileSystem) {path p : Str} (data : Option Str) (h : p ≠ path) :
    (fs.set path data).content p = fs.content p := if_neg h

/-- Of two replacements the later one stands. -/
theorem set_set (fs : FileSystem) (path : Str) (data data' : Option Str) :
    (fs.set path data).set path data' = fs.set path data' := by
  simp only [set, mk.injEq, and_self, and_true]
  funext p
  split_ifs <;> rfl

/-- Replacing a content by itself changes nothing. -/
theorem set_content_self {fs : FileSystem} {path : Str} {data : Option Str}
    (h : fs.content path = data) : fs.set path data = fs := by
  obtain ⟨content, readable, writable⟩ := fs
  simp only [set, mk.injEq, and_self, and_true]
  funext p
  split_ifs with hp
  · rw [hp, ← h]
  · rfl

end FileSystem

/-- `file_utils::read_whole_file`: the empty text when the file cannot be read. -/
def readWholeFile (fs : FileSystem) (path : Str) : Str :=
  if fs.readable path then (fs.content path).getD [] else []

/-- `file_utils::create_file_for_overwrite` -/
def createFileForOverwrite (fs : FileSystem) (path data : Str) : Bool × FileSystem :=
  if fs.writable path then (true, fs.set path (some data)) else (false, fs)

/-- `fs::copy_file`: fails also when there is nothing to copy, or the target exists. -/
def copyFile (fs : FileSystem) (source target : Str) (succeeds : Bool) : Bool × FileSystem :=
  if succeeds && fs.fileExists source && !fs.fileExists target then
    (true, fs.set target (fs.content source))
  else (false, fs)

/-- `fs::rename`: fails also when there is nothing to rename. -/
def rename (fs : FileSystem) (source target : Str) (succeeds : Bool) : Bool × FileSystem :=
  if succeeds && fs.fileExists source then
    (true, (fs.set target (fs.content source)).set source none)
  else (false, fs)

theorem readWholeFile_of_readable {fs : FileSystem} {path text : Str}
    (hc : fs.content path = some text) (hr : fs.readable path = true) :
    readWholeFile fs path = text := by
  simp [readWholeFile, hr, hc]

theorem createFileForOverwrite_of_writable {fs : FileSystem} {path : Str}
    (hw : fs.writable path = true) (data : Str) :
    createFileForOverwrite fs path data = (true, fs.set path (some data)) :=
  if_pos hw

end CliInstaller
