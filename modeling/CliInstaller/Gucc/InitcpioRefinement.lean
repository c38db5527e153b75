import Mathlib.Logic.Function.Basic
import CliInstaller.General.Machine
import CliInstaller.Gucc.Initcpio

/-!
# `Initcpio` refines three lists

A file that conforms to three lists assigns each of them on one line and on no other. An operation
on a conforming file is the operation on the lists: it is refused together with it, and otherwise
leaves a file that conforms to the new lists and differs in the assignment lines only.

## Main definitions

* `Lists`, `Call`, `Call.change`: the lists and the operations on them
* `Conforms`, `skeleton`: the lists a file assigns, and everything else in it
* `Call.exec`, `fileMachine`, `listsMachine`: the operations on the file and on the lists

## Main results

* `parseFile_of_conforms`, `conforms_rewritten`: reading and writing a conforming file
* `simulates`: the file simulates the lists, call by call
* `initcpio_refines_lists`: after every sequence of calls
-/

namespace CliInstaller

open Splitting Machines

/-! ## The lists and the operations on them -/

/-- The value of each variable. -/
abbrev Lists := Field → List Str

/-- The operations of `Initcpio`. -/
inductive Call where
  | appendModule (module : Str)
  | appendFile (file : Str)
  | appendHook (hook : Str)
  | appendHooks (hook : List Str)
  | insertHook (needle hook : Str)
  | insertHooks (needle : Str) (hook : List Str)
  | removeModule (module : Str)
  | removeHook (hook : Str)
  deriving DecidableEq, Repr

/-- Insert before the first occurrence of `needle`, or at the end. -/
def insertBefore (needle : Str) (ws : List Str) : List Str → List Str
  | [] => ws
  | w :: l => if w = needle then ws ++ w :: l else w :: insertBefore needle ws l

namespace Call

/-- All arguments. -/
def args : Call → List Str
  | appendModule w | appendFile w | appendHook w | removeModule w | removeHook w => [w]
  | appendHooks ws => ws
  | insertHook needle w => [needle, w]
  | insertHooks needle ws => needle :: ws

/-- The elements that are to be added. -/
def elements : Call → List Str
  | appendModule w | appendFile w | appendHook w | insertHook _ w => [w]
  | appendHooks ws | insertHooks _ ws => ws
  | removeModule _ | removeHook _ => []

/-- The variable that is edited. -/
def field : Call → Field
  | appendModule _ | removeModule _ => .modules
  | appendFile _ => .files
  | _ => .hooks

/-- Add the words that are new with `add`; refuse when none is. -/
def addNew (ws : List Str) (add : List Str → List Str → List Str) (l : List Str) :
    Option (List Str) :=
  if ws ⊆ l then none else some (add (ws.filter (· ∉ l)) l)

/-- The effect on the list that is edited, `none` when the call is refused. -/
def change : Call → List Str → Option (List Str)
  | appendModule w | appendFile w | appendHook w => addNew [w] fun ws l => l ++ ws
  | appendHooks ws => addNew ws fun ws l => l ++ ws
  | insertHook needle w => addNew [w] (insertBefore needle)
  | insertHooks needle ws => addNew ws (insertBefore needle)
  | removeModule w | removeHook w => fun l => if w ∈ l then some (l.erase w) else none

/-- The call on an object at work on a file system. -/
def exec : Call → Session → Bool × Session
  | appendModule w => Session.appendModule w
  | appendFile w => Session.appendFile w
  | appendHook w => Session.appendHook w
  | appendHooks ws => Session.appendHooks ws
  | insertHook needle w => Session.insertHook needle w
  | insertHooks needle ws => Session.insertHooks needle ws
  | removeModule w => Session.removeModule w
  | removeHook w => Session.removeHook w

end Call

/-- Insertion at the iterator that the search for the needle returns. -/
theorem insertAt_idxOf (needle : Str) (ws l : List Str) :
    Session.insertAt l (l.idxOf needle) ws = insertBefore needle ws l := by
  induction l with
  | nil => simp [Session.insertAt, insertBefore]
  | cons w l ih =>
    simp only [Session.insertAt] at ih
    by_cases h : w = needle
    · simp [Session.insertAt, insertBefore, h]
    · simp [Session.insertAt, insertBefore, h, List.idxOf_cons_ne l h, ih]

theorem insertAt_length (ws l : List Str) : Session.insertAt l l.length ws = l ++ ws := by
  simp [Session.insertAt]

theorem addNew_singleton (w : Str) (add : List Str → List Str → List Str) (l : List Str) :
    Call.addNew [w] add l = if l.contains w then none else some (add [w] l) := by
  by_cases h : w ∈ l <;> simp [Call.addNew, h]

theorem addNew_eq_ite (ws : List Str) (add : List Str → List Str → List Str) (l : List Str) :
    Call.addNew ws add l =
      if (ws.filter fun el => !l.contains el).isEmpty then none
      else some (add (ws.filter fun el => !l.contains el) l) := by
  have hempty : (ws.filter fun el => !l.contains el).isEmpty ↔ ws ⊆ l := by
    simp [List.subset_def]
  simp only [Call.addNew, ← hempty]
  simp

/-- Erasing at the iterator that the search returns. -/
theorem erase_eq_ite (w : Str) (l : List Str) :
    (if w ∈ l then some (l.erase w) else none) =
      if l.idxOf w = l.length then none else some (l.eraseIdx (l.idxOf w)) := by
  rw [List.eraseIdx_idxOf_eq_erase]
  by_cases h : w ∈ l
  · simp [h, (List.idxOf_lt_length_of_mem h).ne]
  · simp [h]

theorem edit_congr (f : Field) {g h : List Str → Option (List Str)} (hgh : ∀ l, g l = h l)
    (s : Session) : s.edit f g = s.edit f h := by
  rw [funext hgh]

/-- Every operation is the common edit, with the pure operation as the change. -/
theorem Call.exec_eq_edit (call : Call) (s : Session) :
    call.exec s = s.edit call.field call.change := by
  -- Every operation has the shape of `edit`; what differs is how the list changes.
  cases call with
  | appendModule w | appendFile w | appendHook w =>
    simp only [exec, Session.appendModule, Session.appendFile, Session.appendHook, Session.append]
    exact edit_congr _ (fun l => (addNew_singleton w (fun ws l => l ++ ws) l).symm) s
  | appendHooks ws =>
    rw [exec, Session.appendHooks]
    apply edit_congr
    intro l
    simp only [addNew_eq_ite, change, insertAt_length]
  | insertHook needle w =>
    rw [exec, Session.insertHook]
    apply edit_congr
    intro l
    simp only [addNew_singleton, change, insertAt_idxOf]
  | insertHooks needle ws =>
    rw [exec, Session.insertHooks]
    apply edit_congr
    intro l
    simp only [addNew_eq_ite, change, insertAt_idxOf]
  | removeModule w | removeHook w =>
    simp only [exec, Session.removeModule, Session.removeHook, Session.remove]
    exact edit_congr _ (fun l => (erase_eq_ite w l).symm) s

/-! ## Files that conform to the lists -/

/-- A word: non-empty, without a space, a closing bracket and a newline. -/
structure IsWord (w : Str) : Prop where
  ne_nil : w ≠ []
  space : ' ' ∉ w
  bracket : ')' ∉ w
  newline : '\n' ∉ w

instance (w : Str) : Decidable (IsWord w) :=
  decidable_of_iff (w ≠ [] ∧ ' ' ∉ w ∧ ')' ∉ w ∧ '\n' ∉ w)
    ⟨fun ⟨h₁, h₂, h₃, h₄⟩ => ⟨h₁, h₂, h₃, h₄⟩, fun ⟨h₁, h₂, h₃, h₄⟩ => ⟨h₁, h₂, h₃, h₄⟩⟩

/-- A file assigns its list to each variable on one line, and no other line starts with the name
of a variable. -/
structure Conforms (content : Str) (L : Lists) : Prop where
  assigned : ∀ f : Field, ((lines content).filter fun line => startsWith line f.name) =
    [assignment f ([' '].intercalate (L f))]
  words : ∀ f, ∀ w ∈ L f, IsWord w

/-- What the file holds beside the lists: every other line, and where the assignments stand. -/
def skeleton (content : Str) : List (Field ⊕ Str) :=
  (lines content).map fun line =>
    match lineField line with
    | some f => .inl f
    | none => .inr line

theorem insertBefore_perm (needle : Str) (ws l : List Str) :
    (insertBefore needle ws l).Perm (ws ++ l) := by
  induction l with
  | nil => simp [insertBefore]
  | cons w l ih =>
    by_cases h : w = needle
    · simp [insertBefore, h]
    · simp only [insertBefore, if_neg h]
      exact (ih.cons w).trans List.perm_middle.symm

theorem addNew_forall {P : Str → Prop} {ws l l' : List Str} {add : List Str → List Str → List Str}
    (hadd : ∀ ws l, (add ws l).Perm (ws ++ l)) (hws : ∀ w ∈ ws, P w)
    (hl : ∀ w ∈ l, P w) (h : Call.addNew ws add l = some l') : ∀ w ∈ l', P w := by
  rw [Call.addNew, Option.ite_none_left_eq_some] at h
  obtain ⟨-, h⟩ := h
  obtain rfl := Option.some.inj h
  intro w hw
  rcases List.mem_append.mp ((hadd _ _).mem_iff.mp hw) with hw | hw
  · exact hws w (List.mem_of_mem_filter hw)
  · exact hl w hw

theorem Call.elements_subset_args (call : Call) : call.elements ⊆ call.args := by
  cases call <;> simp [elements, args]

/-- A change brings in its elements only. -/
theorem Call.change_forall {P : Str → Prop} {call : Call} {l l' : List Str}
    (helements : ∀ w ∈ call.elements, P w) (hl : ∀ w ∈ l, P w) (h : call.change l = some l') :
    ∀ w ∈ l', P w := by
  cases call with
  | appendModule w | appendFile w | appendHook w | appendHooks ws =>
    exact addNew_forall (fun _ _ => List.perm_append_comm) helements hl h
  | insertHook needle w | insertHooks needle ws =>
    exact addNew_forall (insertBefore_perm needle) helements hl h
  | removeModule w | removeHook w =>
    rw [change, Option.ite_none_right_eq_some] at h
    obtain ⟨-, h⟩ := h
    obtain rfl := Option.some.inj h
    intro v hv
    exact hl v (List.mem_of_mem_erase hv)

/-! ## Reading a conforming file -/

/-- A line is taken for the variable whose name it starts with: no name is the start of
another. -/
theorem lineField_eq_some {line : Str} {f : Field} :
    lineField line = some f ↔ startsWith line f.name = true := by
  have hnames : ∀ g : Field, g ≠ f → startsWith line f.name = true →
      startsWith line g.name = false := by
    intro g hg hf
    by_contra hc
    rw [Bool.not_eq_false, startsWith_iff] at hc
    rw [startsWith_iff] at hf
    have hdiff : ∀ a b : Field, a.name <+: b.name → a = b := by
      intro a b; cases a <;> cases b <;> decide +kernel
    rcases List.prefix_or_prefix_of_prefix hc hf with h | h
    · exact hg (hdiff _ _ h)
    · exact hg (hdiff _ _ h).symm
  cases f <;> simp only [lineField] <;> grind

/-- The names are in capital letters. -/
theorem Field.not_mem_name {c : Char} (hc : c.isUpper = false) (f : Field) : c ∉ f.name := by
  have hupper : f.name.all Char.isUpper = true := by cases f <;> decide +kernel
  intro hmem
  rw [List.all_eq_true.mp hupper c hmem] at hc
  exact Bool.noConfusion hc

theorem startsWith_assignment (f : Field) (value : Str) :
    startsWith (assignment f value) f.name = true := by
  rw [assignment, List.append_assoc, List.append_assoc]
  exact startsWith_append _ _

theorem idxOf?_append_cons {a : Str} {c : Char} (h : c ∉ a) (b : Str) :
    (a ++ c :: b).idxOf? c = some a.length := by
  rw [List.idxOf?_eq_some_iff]
  refine ⟨by simp, by simp, ?_⟩
  intro j hj
  rw [List.getElem_append_left hj]
  intro heq
  exact h (heq ▸ List.getElem_mem hj)

theorem mem_intercalate_space {c : Char} (hc : c ≠ ' ') {ws : List Str} (h : ∀ w ∈ ws, c ∉ w) :
    c ∉ [' '].intercalate ws := by
  induction ws with
  | nil => simp
  | cons w ws ih =>
    rcases ws with _ | ⟨w', ws⟩
    · simpa using h w
    · rw [List.intercalate_cons_cons]
      simp only [List.mem_append, List.mem_singleton, not_or]
      exact ⟨⟨h w List.mem_cons_self, hc⟩, ih fun v hv => h v (List.mem_cons_of_mem w hv)⟩

/-- The line `NAME=(inside)after`. -/
def listLine (f : Field) (inside after : Str) : Str := assignment f inside ++ after

/-- Reading a line gives the pieces between the brackets. -/
theorem parseLine_listLine {f : Field} {inside after : Str} (hinside : ')' ∉ inside) :
    parseLine (listLine f inside after) = splitView ' ' inside := by
  have hopen : (listLine f inside after).idxOf? '(' = some (f.name.length + 1) := by
    have hname : '(' ∉ f.name ++ ['='] := by simp [f.not_mem_name (rfl : '('.isUpper = false)]
    simpa [listLine, assignment] using idxOf?_append_cons hname (inside ++ ')' :: after)
  have hclose : (listLine f inside after).idxOf? ')' =
      some (f.name.length + (inside.length + 2)) := by
    have hbefore : ')' ∉ f.name ++ ['=', '('] ++ inside := by
      simp [f.not_mem_name (rfl : ')'.isUpper = false), hinside]
    simpa [listLine, assignment] using idxOf?_append_cons hbefore after
  have hdrop : (listLine f inside after).drop (f.name.length + 1 + 1) = inside ++ ')' :: after := by
    rw [listLine, assignment, List.append_assoc, List.append_assoc, List.append_assoc]
    exact List.drop_length_add_append 2
  have hnot : ¬ f.name.length + (inside.length + 2) < f.name.length + 1 := by omega
  have hlen : f.name.length + (inside.length + 2) - 1 - (f.name.length + 1) = inside.length := by
    omega
  simp only [parseLine, hopen, hclose, hdrop, if_neg hnot, hlen, List.take_left']

/-- **Words written into an assignment are read back.** -/
theorem parseLine_assignment {f : Field} {ws : List Str} (hws : ∀ w ∈ ws, IsWord w) :
    parseLine (assignment f ([' '].intercalate ws)) = ws := by
  have hinside := mem_intercalate_space (by decide) fun w hw => (hws w hw).bracket
  have hline := @parseLine_listLine f _ [] hinside
  rw [listLine, List.append_nil] at hline
  rw [hline]
  exact splitView_intercalate fun w hw => ⟨(hws w hw).ne_nil, (hws w hw).space⟩

/-- The list read last for a variable stands. -/
theorem list_foldl_parseStep (self : Initcpio) (ls : List Str) (f : Field) :
    (ls.foldl Initcpio.parseStep self).list f =
      (((ls.filter fun line => startsWith line f.name).getLast?).map parseLine).getD
        (self.list f) := by
  induction ls using List.reverseRecOn with
  | nil => simp
  | append_singleton ls line ih =>
    rw [List.foldl_concat, Initcpio.parseStep]
    by_cases hf : startsWith line f.name
    · rw [lineField_eq_some.mpr hf]
      simp [hf]
    · rcases hline : lineField line with _ | g
      · simpa [hf] using ih
      · have hg : f ≠ g := by
          rintro rfl
          exact hf (lineField_eq_some.mp hline)
        simpa [hf, Initcpio.list_setList_of_ne _ hg] using ih

theorem filePath_foldl_parseStep (self : Initcpio) (ls : List Str) :
    (ls.foldl Initcpio.parseStep self).filePath = self.filePath := by
  induction ls generalizing self with
  | nil => rfl
  | cons line ls ih =>
    rw [List.foldl_cons, ih, Initcpio.parseStep]
    split <;> simp

theorem startsWith_nil_name (f : Field) : startsWith [] f.name = false := by
  cases f <;> decide +kernel

theorem Conforms.ne_nil {content : Str} {L : Lists} (h : Conforms content L) : content ≠ [] := by
  rintro rfl
  have hnone := h.assigned .modules
  simp [lines, startsWith_nil_name] at hnone

/-- A line of a conforming file that is taken for a variable is its assignment. -/
theorem Conforms.eq_assignment {content : Str} {L : Lists} (h : Conforms content L) {line : Str}
    (hline : line ∈ lines content) {f : Field} (hf : lineField line = some f) :
    line = assignment f ([' '].intercalate (L f)) := by
  have hmem : line ∈ (lines content).filter fun line => startsWith line f.name :=
    List.mem_filter.mpr ⟨hline, lineField_eq_some.mp hf⟩
  rw [h.assigned f] at hmem
  exact List.mem_singleton.mp hmem

/-- A file system on which `path` holds `content`, and can be read and written. -/
structure Holds (fs : FileSystem) (path content : Str) : Prop where
  content_eq : fs.content path = some content
  readable : fs.readable path = true
  writable : fs.writable path = true

theorem Holds.set {fs : FileSystem} {path content : Str} (h : Holds fs path content) (new : Str) :
    Holds (fs.set path (some new)) path new :=
  ⟨by simp, h.readable, h.writable⟩

theorem Holds.set_of_ne {fs : FileSystem} {path path' content : Str} (h : Holds fs path content)
    (new : Str) (hne : path ≠ path') : Holds (fs.set path' (some new)) path content :=
  ⟨by rw [FileSystem.content_set_of_ne _ _ hne, h.content_eq], h.readable, h.writable⟩

/-- **Reading a conforming file** succeeds and gives its lists. -/
theorem parseFile_of_conforms {fs : FileSystem} {content : Str} {L : Lists} {obj : Initcpio}
    (hfs : Holds fs obj.filePath content) (h : Conforms content L) :
    ∃ obj' : Initcpio, obj.parseFile fs = (true, obj') ∧ obj'.filePath = obj.filePath ∧
      obj'.list = L := by
  refine ⟨(makeSplitView content '\n').foldl Initcpio.parseStep obj, ?_,
    filePath_foldl_parseStep obj _, ?_⟩
  · simp [Initcpio.parseFile, FileSystem.fileExists, hfs.content_eq,
      readWholeFile_of_readable hfs.content_eq hfs.readable, h.ne_nil]
  · funext f
    rw [list_foldl_parseStep,
      filter_makeSplitView _ (startsWith · f.name) (startsWith_nil_name f), h.assigned f]
    exact parseLine_assignment (h.words f)

/-! ## Writing a conforming file -/

namespace Initcpio

/-- What `write` makes of a line. -/
def rewriteLine (self : Initcpio) (line : Str) : Str :=
  match lineField line with
  | some f => assignment f ([' '].intercalate (self.list f))
  | none => line

theorem modifyInitcpioLine_eq (self : Initcpio) (line : Str) :
    modifyInitcpioLine line (join self.modules ' ') (join self.files ' ') (join self.hooks ' ') =
      self.rewriteLine line := by
  rw [modifyInitcpioLine, rewriteLine]
  rcases lineField line with _ | (_ | _ | _) <;> simp [join_eq, list]

theorem lineField_rewriteLine (self : Initcpio) (line : Str) :
    lineField (self.rewriteLine line) = lineField line := by
  rw [rewriteLine]
  split
  next f hf => rw [hf, lineField_eq_some, startsWith_assignment]
  next => rfl

end Initcpio

/-- After the first line, the loop joins what it has with the remaining lines. -/
theorem joinLines_loop (acc : Str) (ls : List Str) :
    (ls.foldl
      (fun (resultStr, firstLine) lineStr =>
        ((if firstLine then resultStr else resultStr ++ ['\n']) ++ lineStr, false))
      (acc, false)).1 = ['\n'].intercalate (acc :: ls) := by
  induction ls generalizing acc with
  | nil => simp
  | cons line ls ih =>
    rw [List.foldl_cons]
    simp only [Bool.false_eq_true, if_false]
    rw [ih, List.intercalate_cons_cons]
    rcases ls with _ | ⟨line', ls⟩
    · simp
    · simp [List.intercalate_cons_cons]

theorem joinLines_eq (ls : List Str) : joinLines ls = ['\n'].intercalate ls := by
  rcases ls with _ | ⟨line, ls⟩
  · rfl
  · exact joinLines_loop line ls

/-- The lines after writing are the rewritten lines. -/
theorem modifyInitcpioFields_eq {content : Str} (hne : content ≠ []) (self : Initcpio) :
    modifyInitcpioFields content (join self.modules ' ') (join self.files ' ')
        (join self.hooks ' ') =
      ['\n'].intercalate ((lines content).map self.rewriteLine) := by
  rw [modifyInitcpioFields, joinLines_eq, splitView_of_ne_nil _ hne]
  simp only [Initcpio.modifyInitcpioLine_eq, lines]

section Write

variable {content : Str} {L : Lists} {self : Initcpio}

/-- The content after writing the lists of `self`. -/
def rewritten (content : Str) (self : Initcpio) : Str :=
  ['\n'].intercalate ((lines content).map self.rewriteLine)

theorem write_eq {fs : FileSystem} (hfs : Holds fs self.filePath content) (hne : content ≠ []) :
    self.write fs = (true, fs.set self.filePath (some (rewritten content self))) := by
  have hexists : fs.fileExists self.filePath = true := by
    simp [FileSystem.fileExists, hfs.content_eq]
  rw [Initcpio.write, if_neg (by simp [hexists]),
    readWholeFile_of_readable hfs.content_eq hfs.readable, if_neg (by simp [hne]),
    modifyInitcpioFields_eq hne, createFileForOverwrite_of_writable hfs.writable, rewritten]

/-- Some line starts with the name of the variable. -/
def Named (content : Str) (f : Field) : Prop :=
  ∃ line ∈ lines content, startsWith line f.name = true

/-- The lists that are written stay on their lines. -/
theorem lines_rewritten (hself : ∀ f, Named content f → ∀ w ∈ self.list f, '\n' ∉ w) :
    lines (rewritten content self) = (lines content).map self.rewriteLine := by
  apply splitOn_map_intercalate
  intro line hline
  rw [Initcpio.rewriteLine]
  split
  -- An assignment of words is one line, and the other lines have been split off.
  next f hf =>
    have hnamed : Named content f := ⟨line, hline, lineField_eq_some.mp hf⟩
    have hval := mem_intercalate_space (by decide) (hself f hnamed)
    have hname : '\n' ∉ f.name := f.not_mem_name rfl
    simp [assignment, hval, hname]
  next => exact not_mem_of_mem_splitOn hline

theorem skeleton_rewritten (hself : ∀ f, ∀ w ∈ self.list f, IsWord w) :
    skeleton (rewritten content self) = skeleton content := by
  rw [skeleton, lines_rewritten fun f _ w hw => (hself f w hw).newline, List.map_map, skeleton]
  apply List.map_congr_left
  intro line _
  rw [Function.comp_apply, Initcpio.lineField_rewriteLine]
  split
  next => rfl
  next hline => rw [Initcpio.rewriteLine, hline]

/-- The lines of a variable after writing. -/
theorem filter_lines_rewritten (hself : ∀ f, Named content f → ∀ w ∈ self.list f, '\n' ∉ w)
    (f : Field) :
    ((lines (rewritten content self)).filter fun line => startsWith line f.name) =
      ((lines content).filter fun line => startsWith line f.name).map fun _ =>
        assignment f ([' '].intercalate (self.list f)) := by
  have hsame : ∀ line, startsWith (self.rewriteLine line) f.name = startsWith line f.name := by
    intro line
    rw [Bool.eq_iff_iff, ← lineField_eq_some, Initcpio.lineField_rewriteLine, lineField_eq_some]
  rw [lines_rewritten hself, List.filter_map]
  simp only [Function.comp_def, hsame]
  apply List.map_congr_left
  intro line hline
  rw [Initcpio.rewriteLine, lineField_eq_some.mpr (List.mem_filter.mp hline).2]

/-- **Writing leaves a file that conforms** to the lists written. -/
theorem conforms_rewritten (h : Conforms content L) (hself : ∀ f, ∀ w ∈ self.list f, IsWord w) :
    Conforms (rewritten content self) self.list :=
  ⟨fun f => by
    rw [filter_lines_rewritten fun f _ w hw => (hself f w hw).newline, h.assigned f]
    rfl, hself⟩

/-- **Writing what was read changes nothing.** -/
theorem rewritten_of_list_eq (h : Conforms content L) (hself : self.list = L) :
    rewritten content self = content := by
  have hid : (lines content).map self.rewriteLine = lines content := by
    refine (List.map_congr_left fun line hline => ?_).trans (List.map_id _)
    rw [Initcpio.rewriteLine]
    split
    next f hf => rw [hself, id, ← h.eq_assignment hline hf]
    next => rfl
  rw [rewritten, hid, intercalate_lines]

end Write

/-! ## The simulation -/

/-- The operations on the file. -/
def fileMachine : Machine Session Call Bool := ⟨Call.exec⟩

/-- The operations on the lists. -/
def listsMachine : Machine Lists Call Bool where
  step call L :=
    match call.change (L call.field) with
    | none => (false, L)
    | some l => (true, Function.update L call.field l)

/-- The object works on a file that conforms to the lists and has the given skeleton. -/
structure Represents (path : Str) (frame : List (Field ⊕ Str)) (s : Session) (L : Lists) :
    Prop where
  path_eq : s.obj.filePath = path
  file : ∃ content, Holds s.fs path content ∧ Conforms content L ∧ skeleton content = frame

section Edit

variable {path : Str} {frame : List (Field ⊕ Str)} {s : Session} {L : Lists} {f : Field}
  {change : List Str → Option (List Str)}

/-- A refused edit leaves the file system as it is. -/
theorem edit_refused (hs : Represents path frame s L) (h : change (L f) = none) :
    (s.edit f change).1 = false ∧ (s.edit f change).2.fs = s.fs ∧
      (s.edit f change).2.obj.filePath = path := by
  obtain ⟨rfl, content, hfs, hcontent, -⟩ := hs
  obtain ⟨obj', hparse, hpath, hlist⟩ := parseFile_of_conforms hfs hcontent
  simp [Session.edit, hparse, hlist, h, hpath]

/-- An edit by words leaves a file that conforms to the edited lists. -/
theorem edit_done (hs : Represents path frame s L) {l : List Str} (h : change (L f) = some l)
    (hl : ∀ w ∈ l, IsWord w) :
    (s.edit f change).1 = true ∧
      Represents path frame (s.edit f change).2 (Function.update L f l) := by
  obtain ⟨rfl, content, hfs, hcontent, hframe⟩ := hs
  obtain ⟨obj', hparse, hpath, hlist⟩ := parseFile_of_conforms hfs hcontent
  have hset : (obj'.setList f l).list = Function.update L f l := by
    funext g
    by_cases hg : g = f
    · subst hg; simp
    · rw [Initcpio.list_setList_of_ne _ hg, hlist, Function.update_of_ne hg]
  have hwords : ∀ g, ∀ w ∈ (obj'.setList f l).list g, IsWord w := by
    rw [hset]
    intro g
    by_cases hg : g = f
    · subst hg; simpa using hl
    · rw [Function.update_of_ne hg]; exact hcontent.words g
  have hfs' : Holds s.fs (obj'.setList f l).filePath content := by
    simpa [hpath] using hfs
  have hedit : s.edit f change =
      (true, ⟨s.fs.set s.obj.filePath (some (rewritten content (obj'.setList f l))),
        obj'.setList f l⟩) := by
    simp only [Session.edit, hparse, hlist, h, write_eq hfs' hcontent.ne_nil, Bool.not_true,
      Bool.false_eq_true, if_false, Initcpio.filePath_setList, hpath]
  rw [hedit]
  refine ⟨rfl, by simp [hpath], _, hfs.set _, ?_, (skeleton_rewritten hwords).trans hframe⟩
  rw [← hset]
  exact conforms_rewritten hcontent hwords

end Edit

section Simulation

variable {path : Str} {frame : List (Field ⊕ Str)} {s : Session} {L : Lists} {call : Call}

/-- What one call does: refused on the lists, it is refused on the file and leaves every file as
it is; done on the lists, it is done on the file. -/
theorem exec_cases (hs : Represents path frame s L) (hcall : ∀ w ∈ call.args, IsWord w) :
    ((listsMachine.step call L) = (false, L) ∧ (fileMachine.step call s).1 = false ∧
        (fileMachine.step call s).2.fs = s.fs ∧
        (fileMachine.step call s).2.obj.filePath = path) ∨
      ∃ l, (listsMachine.step call L) = (true, Function.update L call.field l) ∧
        (fileMachine.step call s).1 = true ∧
        Represents path frame (fileMachine.step call s).2 (Function.update L call.field l) := by
  simp only [fileMachine, listsMachine, call.exec_eq_edit s]
  rcases hchange : call.change (L call.field) with _ | l
  · exact .inl ⟨rfl, edit_refused hs hchange⟩
  · obtain ⟨content, -, hcontent, -⟩ := hs.file
    exact .inr ⟨l, rfl, edit_done hs hchange
      (Call.change_forall (fun w hw => hcall w (call.elements_subset_args hw))
        (hcontent.words call.field) hchange)⟩

/-- **The file simulates the lists.** -/
theorem simulates (path : Str) (frame : List (Field ⊕ Str)) :
    Simulates fileMachine listsMachine (Represents path frame)
      fun call => ∀ w ∈ call.args, IsWord w where
  output := by
    intro call s L hcall hs
    rcases exec_cases hs hcall with ⟨hL, hs', -⟩ | ⟨l, hL, hs', -⟩ <;> rw [hL, hs']
  next := by
    intro call s L hcall hs
    rcases exec_cases hs hcall with ⟨hL, -, hfs, hpath⟩ | ⟨l, hL, -, hs'⟩
    · rw [hL]
      exact ⟨hpath, by rw [hfs]; exact hs.file⟩
    · rw [hL]
      exact hs'

theorem listsMachine_frame {g : Field} (hg : g ≠ call.field) (L : Lists) :
    (listsMachine.step call L).2 g = L g := by
  simp only [listsMachine]
  split
  next => rfl
  next => exact Function.update_of_ne hg _ _

/-- Reading a represented file back, and writing it right after. -/
theorem Represents.reads (hs : Represents path frame s L) {reader : Initcpio}
    (hreader : reader.filePath = path) :
    ∃ reader', reader.parseFile s.fs = (true, reader') ∧ reader'.list = L ∧
      reader'.write s.fs = (true, s.fs) := by
  obtain ⟨-, content, hfs, hcontent, -⟩ := hs
  subst hreader
  obtain ⟨reader', hparse, hpath, hlist⟩ := parseFile_of_conforms hfs hcontent
  refine ⟨reader', hparse, hlist, ?_⟩
  rw [write_eq (hpath ▸ hfs) hcontent.ne_nil, rewritten_of_list_eq hcontent hlist]
  rw [FileSystem.set_content_self (hpath ▸ hfs.content_eq)]

end Simulation

/-- **`Initcpio` refines the three lists.** From a file that conforms to `L`, after any sequence
of calls, and after one more `call`: reading the file gives the lists, and writing it right after
changes nothing; the call answers what it answers on the lists; the other lists and all other
lines are as before; and a refused call has left every file as it was. -/
theorem initcpio_refines_lists {fs : FileSystem} {obj : Initcpio} {content : Str} {L : Lists}
    (hfs : Holds fs obj.filePath content) (hcontent : Conforms content L) (calls : List Call)
    (hcalls : ∀ c ∈ calls, ∀ w ∈ c.args, IsWord w) (call : Call)
    (hcall : ∀ w ∈ call.args, IsWord w) :
    let s := fileMachine.run calls ⟨fs, obj⟩
    let lists := listsMachine.run calls L
    let answer := fileMachine.step call s
    let answer' := listsMachine.step call lists
    (∀ reader : Initcpio, reader.filePath = obj.filePath →
      ∃ reader', reader.parseFile s.fs = (true, reader') ∧ reader'.list = lists ∧
        reader'.write s.fs = (true, s.fs)) ∧
    answer.1 = answer'.1 ∧
    (∀ reader : Initcpio, reader.filePath = obj.filePath →
      ∃ reader', reader.parseFile answer.2.fs = (true, reader') ∧ reader'.list = answer'.2 ∧
        reader'.write answer.2.fs = (true, answer.2.fs)) ∧
    (∀ g ≠ call.field, answer'.2 g = lists g) ∧
    (∃ content', answer.2.fs.content obj.filePath = some content' ∧ Conforms content' answer'.2 ∧
      skeleton content' = skeleton content) ∧
    (answer.1 = false → answer.2.fs = s.fs) := by
  intro s lists answer answer'
  have hs : Represents obj.filePath (skeleton content) s lists :=
    (simulates _ _).run hcalls ⟨rfl, content, hfs, hcontent, rfl⟩
  have hnext : Represents obj.filePath (skeleton content) answer.2 answer'.2 :=
    (simulates _ _).next hcall hs
  refine ⟨fun reader hr => hs.reads hr, (simulates _ _).output hcall hs,
    fun reader hr => hnext.reads hr,
    fun g hg => listsMachine_frame hg lists, ?_, fun hrefused => ?_⟩
  · obtain ⟨-, content', hfs', hcontent', hframe⟩ := hnext
    exact ⟨content', hfs'.content_eq, hcontent', hframe⟩
  -- A call that answers `false` is the refused case: a call that is done answers `true`.
  · rcases exec_cases hs hcall with ⟨-, -, hsame, -⟩ | ⟨l, -, hdone, -⟩
    · exact hsame
    · exact absurd (hdone.symm.trans hrefused) Bool.noConfusion

/-- The file of an installed system. -/
def samplePath : Str := lit "/mnt/etc/mkinitcpio.conf"

/-- A small mkinitcpio.conf. -/
def sampleContent : Str :=
  lit "# vim:set ft=sh\nMODULES=(btrfs)\nFILES=()\n\nHOOKS=(base udev)\n"

/-- The lists it assigns. -/
def sampleLists : Lists
  | .modules => [lit "btrfs"]
  | .files => []
  | .hooks => [lit "base", lit "udev"]

theorem initcpio_refines_lists_sample :
    let s := fileMachine.run [.appendModule (lit "crc32c")]
      ⟨.single samplePath sampleContent, .new samplePath⟩
    let answer := fileMachine.step (.insertHooks (lit "udev") [lit "base", lit "plymouth"]) s
    answer.1 = true ∧
      ∃ reader', (Initcpio.new samplePath).parseFile answer.2.fs = (true, reader') ∧
        reader'.modules = [lit "btrfs", lit "crc32c"] ∧
        reader'.hooks = [lit "base", lit "plymouth", lit "udev"] := by
  have hconforms : Conforms sampleContent sampleLists :=
    ⟨fun f => by cases f <;> decide +kernel, fun f => by cases f <;> decide +kernel⟩
  have hholds : Holds (.single samplePath sampleContent) samplePath sampleContent :=
    ⟨FileSystem.content_single _ _, rfl, rfl⟩
  obtain ⟨-, hanswer, hread, -⟩ := @initcpio_refines_lists _ (.new samplePath) _ _ hholds hconforms
    [.appendModule (lit "crc32c")] (by decide +kernel)
    (.insertHooks (lit "udev") [lit "base", lit "plymouth"]) (by decide +kernel)
  obtain ⟨reader', hparse, hlist, -⟩ := hread (.new samplePath) rfl
  exact ⟨hanswer.trans (by decide +kernel), reader', hparse,
    (congrFun hlist .modules).trans (by decide +kernel),
    (congrFun hlist .hooks).trans (by decide +kernel)⟩

end CliInstaller
