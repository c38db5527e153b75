import Mathlib.Data.List.Forall2
import CliInstaller.Gucc.InitcpioWrites

/-!
# `Initcpio`: the lines that are no assignment

A write replaces every line that starts with the name of a variable. That is an assignment to the
variable, or a line that only begins the same way, such as `MODULES_DECOMPRESS="yes"`, which is lost.

## Main definitions

* `assignsTo`, `assignsField`: the lines that are assignments
* `OthersKept`: all other lines are kept, and have no part in what is read
* `Operation`: the calls, and `parse_file` and `write` on their own

## Main results

* `othersKept_rewritten_iff`: when a write keeps all other lines
* `othersKept_iff`: when an operation does
-/

namespace CliInstaller

open Splitting

/-- An assignment to the variable: its name, and `=` or `+=`. -/
def assignsTo (line : Str) (f : Field) : Bool :=
  startsWith line (f.name ++ ['=']) || startsWith line (f.name ++ ['+', '='])

/-- An assignment to one of the three variables. -/
def assignsField (line : Str) : Bool :=
  assignsTo line .modules || assignsTo line .files || assignsTo line .hooks

/-- The lists that are read are those of the assignments: without the other lines they are the
same. -/
def ReadsAssignments (content : Str) : Prop :=
  ∀ (self : Initcpio) (f : Field), (self.parsed content).list f =
    (((lines content).filter assignsField).foldl Initcpio.parseStep self).list f

/-- **All other lines are kept**, each in its place; the file ends with a newline if it did; and the
other lines have no part in what is read, before and after. -/
structure OthersKept (content content' : Str) : Prop where
  kept : List.Forall₂ (fun line line' => assignsField line = false → line' = line)
    (lines content) (lines content')
  newline : content'.getLast? = some '\n' ↔ content.getLast? = some '\n'
  reads : ReadsAssignments content
  reads' : ReadsAssignments content'

/-- Every line that starts with the name of a variable is an assignment. -/
def NamesAssigned (content : Str) : Prop :=
  ∀ line ∈ lines content, ∀ f : Field, startsWith line f.name = true → assignsField line = true

section Rewritten

variable {content : Str} {self : Initcpio}

theorem assignsField_assignment (f : Field) (value : Str) :
    assignsField (assignment f value) = true := by
  have hto : assignsTo (assignment f value) f = true := by
    have hsplit : assignment f value = (f.name ++ ['=']) ++ ('(' :: value ++ [')']) := by
      simp [assignment]
    rw [assignsTo, hsplit, startsWith_append, Bool.true_or]
  cases f <;> simp [assignsField, hto]

theorem readsAssignments (h : NamesAssigned content) : ReadsAssignments content := by
  intro self f
  have hsame : (((lines content).filter assignsField).filter fun line =>
      startsWith line f.name) = (lines content).filter fun line => startsWith line f.name := by
    rw [List.filter_filter]
    refine List.filter_congr fun line hline => ?_
    by_cases hstart : startsWith line f.name = true
    · rw [hstart, h line hline f hstart, Bool.true_and]
    · simp [hstart]
  rw [list_parsed, list_foldl_parseStep, hsame, lastLine]

/-- A text ends with a newline iff it has a second line, and the last line is empty. -/
theorem getLast?_eq_newline_iff (text : Str) :
    text.getLast? = some '\n' ↔ 1 < (lines text).length ∧ (lines text).getLast? = some [] :=
  getLast?_eq_some_iff_splitOn

theorem mem_intercalate_of_mem {c : Char} {w : Str} {ws : List Str} (hw : w ∈ ws) (hc : c ∈ w) :
    c ∈ [' '].intercalate ws := by
  obtain ⟨before, after, rfl⟩ := List.append_of_mem hw
  rw [intercalate_append_cons, intercalate_cons_eq]
  simp [hc]

/-- **When a write keeps all other lines**: every line that starts with a name is an assignment, and
no newline is written. -/
theorem othersKept_rewritten_iff :
    OthersKept content (rewritten content self) ↔ NamesAssigned content ∧
      ∀ f, Named content f → ∀ w ∈ self.list f, '\n' ∉ w := by
  constructor
  · intro h
    have hnewline : ∀ f, Named content f → ∀ w ∈ self.list f, '\n' ∉ w := by
      rintro f ⟨line, hline, hstart⟩ w hw hc
      have hmore : ((lines content).map self.rewriteLine).length <
          (lines (rewritten content self)).length := by
        refine length_lt_length_splitOn_intercalate (List.mem_map_of_mem hline) ?_
        rw [rewriteLine_of_startsWith hstart, assignment]
        simp [mem_intercalate_of_mem hw hc]
      rw [List.length_map, h.kept.length_eq] at hmore
      exact absurd hmore (lt_irrefl _)
    refine ⟨fun line hline f hstart => ?_, hnewline⟩
    have hkept := h.kept
    rw [lines_rewritten hnewline, List.forall₂_map_right_iff, List.forall₂_same] at hkept
    by_contra hnot
    have heq := hkept line hline (Bool.eq_false_iff.mpr hnot)
    rw [rewriteLine_of_startsWith hstart] at heq
    rw [← heq, assignsField_assignment] at hnot
    exact hnot rfl
  · rintro ⟨hnames, hnewline⟩
    have hlines := lines_rewritten hnewline
    refine ⟨?_, ?_, readsAssignments hnames, readsAssignments ?_⟩
    · rw [hlines, List.forall₂_map_right_iff, List.forall₂_same]
      intro line hline hother
      rw [Initcpio.rewriteLine]
      split
      · rename_i f hf
        simp [hnames line hline f (lineField_eq_some.mp hf)] at hother
      · rfl
    · rw [getLast?_eq_newline_iff, getLast?_eq_newline_iff, hlines, List.length_map,
        List.getLast?_map]
      simp only [Option.map_eq_some_iff, rewriteLine_eq_nil_iff, exists_eq_right]
    · intro line hline f hstart
      rw [hlines] at hline
      obtain ⟨line, -, rfl⟩ := List.mem_map.mp hline
      rw [← lineField_eq_some, Initcpio.lineField_rewriteLine, lineField_eq_some] at hstart
      rw [rewriteLine_of_startsWith hstart, assignsField_assignment]

end Rewritten

/-! ## The operations -/

/-- All operations: the calls, and `parse_file` and `write` on their own. -/
inductive Operation where
  | call (call : Call)
  | parseFile
  | write
  deriving DecidableEq, Repr

namespace Operation

/-- The operation on an object at work on a file system. -/
def exec : Operation → Session → Bool × Session
  | call c, s => c.exec s
  | parseFile, s =>
    let (parsed, obj) := s.obj.parseFile s.fs
    (parsed, { s with obj })
  | write, s =>
    let (written, fs) := s.obj.write s.fs
    (written, { s with fs })

/-- What the operation writes to a list that does not come from the file. -/
def brings : Operation → Session → Field → List Str
  | call c, _, f => if f = c.field then c.elements else []
  | parseFile, _, _ => []
  | write, s, f => s.obj.list f

end Operation

/-- The elements of a call that succeeds are in the list after it. -/
theorem Call.mem_of_mem_elements {call : Call} {l l' : List Str} (h : call.change l = some l')
    {w : Str} (hw : w ∈ call.elements) : w ∈ l' := by
  have hadd : ∀ (ws : List Str) (add : List Str → List Str → List Str),
      (∀ ws l, (add ws l).Perm (ws ++ l)) → Call.addNew ws add l = some l' → w ∈ ws → w ∈ l' := by
    intro ws add hperm h hw
    rw [Call.addNew, Option.ite_none_left_eq_some] at h
    obtain ⟨-, h⟩ := h
    obtain rfl := Option.some.inj h
    rw [(hperm _ _).mem_iff, List.mem_append, List.mem_filter]
    by_cases hl : w ∈ l
    · exact Or.inr hl
    · exact Or.inl ⟨hw, by simpa using hl⟩
  cases call with
  | appendModule v | appendFile v | appendHook v | appendHooks ws =>
    exact hadd _ _ (fun _ _ => List.perm_append_comm) h hw
  | insertHook needle v | insertHooks needle ws =>
    exact hadd _ _ (insertBefore_perm needle) h hw
  | removeModule v | removeHook v => exact absurd hw List.not_mem_nil

/-- What an operation that succeeds writes: the lists of an object; a list that has a line in the
file holds a newline iff the operation brings one in. -/
theorem Operation.exec_true {op : Operation} {s s' : Session} (hwrites : op ≠ .parseFile)
    (h : op.exec s = (true, s')) : ∃ content written, Holds s.fs s.obj.filePath content ∧
      s'.fs = s.fs.set s.obj.filePath (some (rewritten content written)) ∧
      ∀ f, Named content f → ((∀ w ∈ written.list f, '\n' ∉ w) ↔ ∀ w ∈ op.brings s f, '\n' ∉ w) := by
  cases op with
  | parseFile => exact absurd rfl hwrites
  | write =>
    rcases write_cases s.obj s.fs with hwrite | ⟨content, hholds, -, hwrite⟩
    · simp [exec, hwrite] at h
    · simp only [exec, hwrite, Prod.mk.injEq, true_and] at h
      obtain rfl := h
      exact ⟨content, s.obj, hholds, rfl, fun f _ => Iff.rfl⟩
  | call c =>
    obtain ⟨content, l, hholds, -, hchange, hobj, hfs⟩ := CliInstaller.exec_true h
    refine ⟨content, s'.obj, hholds, hfs, fun f hnamed => ?_⟩
    have hread : ∀ w ∈ (s.obj.parsed content).list f, '\n' ∉ w := fun w => not_mem_list_parsed hnamed
    rw [hobj, brings]
    by_cases hf : f = c.field
    · subst hf
      rw [Initcpio.list_setList_self, if_pos rfl]
      exact ⟨fun h w hw => h w (c.mem_of_mem_elements hchange hw),
        fun h => Call.change_forall h hread hchange⟩
    · rw [Initcpio.list_setList_of_ne _ hf, if_neg hf]
      exact iff_of_true hread fun w hw => absurd hw List.not_mem_nil

/-- **When an operation that writes the file keeps all other lines**: every line that starts with the name of a variable
is an assignment, and the operation brings no newline into a list that has a line. -/
theorem othersKept_iff {op : Operation} {s s' : Session} {content : Str}
    (hcontent : s.fs.content s.obj.filePath = some content) (hwrites : op ≠ .parseFile)
    (h : op.exec s = (true, s')) :
    (∃ content', s'.fs.content s.obj.filePath = some content' ∧ OthersKept content content') ↔
      NamesAssigned content ∧ ∀ f, Named content f → ∀ w ∈ op.brings s f, '\n' ∉ w := by
  obtain ⟨content', written, hholds, hfs, hbrings⟩ := op.exec_true hwrites h
  obtain rfl := Option.some.inj (hcontent.symm.trans hholds.content_eq)
  rw [hfs, FileSystem.content_set_self]
  simp only [Option.some.injEq, exists_eq_left', othersKept_rewritten_iff]
  exact and_congr_right fun _ => forall₂_congr hbrings

theorem othersKept_iff_sample :
    (∃ content', ((Operation.call (.appendModule (lit "crc32c"))).exec
        ⟨.single samplePath sampleContent, .new samplePath⟩).2.fs.content samplePath =
          some content' ∧ OthersKept sampleContent content') ↔
      NamesAssigned sampleContent ∧ ∀ f, Named sampleContent f →
        ∀ w ∈ (Operation.call (.appendModule (lit "crc32c"))).brings
          ⟨.single samplePath sampleContent, .new samplePath⟩ f, '\n' ∉ w :=
  othersKept_iff (s := ⟨.single samplePath sampleContent, .new samplePath⟩)
    (FileSystem.content_single _ _) (by simp) (Prod.ext (by decide +kernel) rfl)

/-- A mkinitcpio.conf with a setting whose name begins like that of a variable. -/
def decompressContent : Str :=
  lit "MODULES_DECOMPRESS=\"yes\"\nMODULES=()\nHOOKS=(base udev)\n"

/-- The setting is replaced by the list. -/
theorem appendModule_decompressContent :
    ((Operation.call (.appendModule (lit "btrfs"))).exec
        ⟨.single samplePath decompressContent, .new samplePath⟩).1 = true ∧
      ((Operation.call (.appendModule (lit "btrfs"))).exec
        ⟨.single samplePath decompressContent, .new samplePath⟩).2.fs.content samplePath =
          some (lit "MODULES=(btrfs)\nMODULES=(btrfs)\nHOOKS=(base udev)\n") ∧
      ¬ OthersKept decompressContent
        (lit "MODULES=(btrfs)\nMODULES=(btrfs)\nHOOKS=(base udev)\n") := by
  refine ⟨by decide +kernel, by decide +kernel, fun h => ?_⟩
  have hkept := h.kept
  rw [show lines decompressContent = [lit "MODULES_DECOMPRESS=\"yes\"", lit "MODULES=()",
      lit "HOOKS=(base udev)", []] by decide +kernel,
    show lines (lit "MODULES=(btrfs)\nMODULES=(btrfs)\nHOOKS=(base udev)\n") =
      [lit "MODULES=(btrfs)", lit "MODULES=(btrfs)", lit "HOOKS=(base udev)", []] by
        decide +kernel, List.forall₂_cons] at hkept
  have hfirst := hkept.1 (by decide +kernel)
  simp [lit_eq] at hfirst

end CliInstaller
