import CliInstaller.Gucc.InitcpioRefinement

/-!
# `Initcpio`: what one write does to any file

Of a variable that some line starts with the name of, the list in memory after parsing is the one
of the last such line, whatever was there before; a variable without such a line is not written. So
what is written depends on the file and the call only.

## Main definitions

* `Initcpio.parsed`: the object after parsing a content
* `lastLine`: the line a variable is read from

## Main results

* `list_parsed`, `not_mem_list_parsed`: the lists in memory after parsing
* `edit_cases`, `exec_true`: what an edit does, and a call that succeeds
-/

namespace CliInstaller

open Splitting

/-- The object after parsing a content. -/
def Initcpio.parsed (self : Initcpio) (content : Str) : Initcpio :=
  (makeSplitView content '\n').foldl Initcpio.parseStep self

theorem list_new (path : Str) (f : Field) : (Initcpio.new path).list f = [] := by
  cases f <;> rfl

/-- The last line that starts with the name of a variable. -/
def lastLine (content : Str) (f : Field) : Option Str :=
  ((lines content).filter fun line => startsWith line f.name).getLast?

section Parsed

variable {content : Str} {f : Field}

/-- **The lists in memory after parsing**: the last line of a variable, or the list as it was. -/
theorem list_parsed (self : Initcpio) (content : Str) (f : Field) :
    (self.parsed content).list f = ((lastLine content f).map parseLine).getD (self.list f) := by
  rw [Initcpio.parsed, list_foldl_parseStep,
    filter_makeSplitView _ (startsWith · f.name) (startsWith_nil_name f), lastLine]

theorem filePath_parsed (self : Initcpio) (content : Str) :
    (self.parsed content).filePath = self.filePath :=
  filePath_foldl_parseStep self _

theorem named_iff_lastLine : Named content f ↔ ∃ line, lastLine content f = some line := by
  rw [← Option.ne_none_iff_exists', lastLine, ne_eq, List.getLast?_eq_none_iff,
    List.filter_eq_nil_iff]
  simp only [Named, not_forall, not_not, exists_prop]

theorem mem_lines_of_lastLine {line : Str} (h : lastLine content f = some line) :
    line ∈ lines content ∧ startsWith line f.name = true :=
  List.mem_filter.mp (List.mem_of_getLast? h)

/-- The words of a line are free of spaces, and parts of the line. -/
theorem of_mem_parseLine {line w : Str} (h : w ∈ parseLine line) : ' ' ∉ w ∧ w ⊆ line := by
  obtain ⟨inside, hinside, hw⟩ : ∃ inside, inside ⊆ line ∧ w ∈ splitView ' ' inside := by
    rw [parseLine] at h
    split at h
    · refine ⟨_, ?_, h⟩
      split_ifs
      · exact List.drop_subset _ _
      · exact List.Subset.trans (List.take_subset _ _) (List.drop_subset _ _)
    · exact absurd h List.not_mem_nil
  have hne : inside ≠ [] := by
    rintro rfl
    simp at hw
  rw [splitView_of_ne_nil _ hne] at hw
  refine ⟨not_mem_of_mem_splitOn hw, ?_⟩
  by_cases hempty : w = []
  · simp [hempty]
  · exact List.Subset.trans (infix_of_mem_pieces (mem_pieces.mpr ⟨hw, hempty⟩)).subset hinside

/-- A list that is read from the file holds no newline. -/
theorem not_mem_list_parsed {self : Initcpio} (hnamed : Named content f) {w : Str}
    (hw : w ∈ (self.parsed content).list f) : '\n' ∉ w := by
  obtain ⟨line, hline⟩ := named_iff_lastLine.mp hnamed
  rw [list_parsed, hline, Option.map_some, Option.getD_some] at hw
  exact fun hc => not_mem_of_mem_splitOn (mem_lines_of_lastLine hline).1
    ((of_mem_parseLine hw).2 hc)

end Parsed

/-! ## The lines that are written -/

section Rewritten

variable {content : Str} {self : Initcpio}

theorem rewriteLine_of_startsWith {line : Str} {f : Field} (h : startsWith line f.name = true) :
    self.rewriteLine line = assignment f ([' '].intercalate (self.list f)) := by
  rw [Initcpio.rewriteLine, lineField_eq_some.mpr h]

theorem rewriteLine_eq_nil_iff {line : Str} : self.rewriteLine line = [] ↔ line = [] := by
  rw [Initcpio.rewriteLine]
  split
  · rename_i f hf
    rw [lineField_eq_some] at hf
    refine iff_of_false (by simp [assignment]) ?_
    rintro rfl
    simp [startsWith_nil_name] at hf
  · exact Iff.rfl

/-- The line a variable is read from after writing. -/
theorem lastLine_rewritten (hself : ∀ f, Named content f → ∀ w ∈ self.list f, '\n' ∉ w)
    (f : Field) :
    lastLine (rewritten content self) f =
      (lastLine content f).map fun _ => assignment f ([' '].intercalate (self.list f)) := by
  rw [lastLine, filter_lines_rewritten hself, List.getLast?_map, lastLine]

/-- Only the empty line is written as the empty line, so a file does not become empty. -/
theorem rewritten_ne_nil (hne : content ≠ []) : rewritten content self ≠ [] := by
  intro h
  apply hne
  rw [← intercalate_lines content]
  rw [rewritten] at h
  rcases hlines : lines content with _ | ⟨line, _ | ⟨line', rest⟩⟩
  · rfl
  · rw [hlines, List.map_singleton, List.intercalate_singleton, rewriteLine_eq_nil_iff] at h
    rw [h, List.intercalate_singleton]
  · rw [hlines, List.map_cons, List.map_cons, List.intercalate_cons_cons] at h
    simp at h

end Rewritten

/-! ## Calls that succeed -/

theorem exists_content {fs : FileSystem} {path : Str} (hexists : fs.fileExists path = true)
    (hne : readWholeFile fs path ≠ []) :
    ∃ content, fs.content path = some content ∧ fs.readable path = true ∧ content ≠ [] ∧
      readWholeFile fs path = content := by
  obtain ⟨content, hcontent⟩ := Option.isSome_iff_exists.mp hexists
  have hreadable : fs.readable path = true := by
    by_contra hnot
    simp [readWholeFile, hnot] at hne
  have hread := readWholeFile_of_readable hcontent hreadable
  exact ⟨content, hcontent, hreadable, hread ▸ hne, hread⟩

/-- Parsing fails, or the file can be read and is not empty. -/
theorem parseFile_cases (self : Initcpio) (fs : FileSystem) :
    self.parseFile fs = (false, self) ∨
      ∃ content, fs.content self.filePath = some content ∧ fs.readable self.filePath = true ∧
        content ≠ [] ∧ self.parseFile fs = (true, self.parsed content) := by
  rw [Initcpio.parseFile]
  split
  · exact Or.inl rfl
  rename_i hexists
  dsimp only
  split
  · exact Or.inl rfl
  · rename_i hempty
    obtain ⟨content, hcontent, hreadable, hne, hread⟩ :=
      exists_content (by simpa using hexists) (by simpa using hempty)
    exact Or.inr ⟨content, hcontent, hreadable, hne, by rw [hread, Initcpio.parsed]⟩

/-- Writing fails, or the file can be read and written, and is not empty. -/
theorem write_cases (self : Initcpio) (fs : FileSystem) :
    self.write fs = (false, fs) ∨
      ∃ content, Holds fs self.filePath content ∧ content ≠ [] ∧
        self.write fs = (true, fs.set self.filePath (some (rewritten content self))) := by
  rw [Initcpio.write]
  split
  · exact Or.inl rfl
  rename_i hexists
  dsimp only
  split
  · exact Or.inl rfl
  · rename_i hempty
    obtain ⟨content, hcontent, hreadable, hne, hread⟩ :=
      exists_content (by simpa using hexists) (by simpa using hempty)
    rw [hread, modifyInitcpioFields_eq hne, createFileForOverwrite]
    split_ifs with hwritable
    · exact Or.inr ⟨content, ⟨hcontent, hreadable, hwritable⟩, hne, rfl⟩
    · exact Or.inl rfl

/-- **What an edit does**: nothing, when it cannot parse; the lists are parsed, when it is refused;
and one of them is changed, and the file is written where it can be. -/
theorem edit_cases (s : Session) (f : Field) (change : List Str → Option (List Str)) :
    s.edit f change = (false, s) ∨ ∃ content, s.fs.content s.obj.filePath = some content ∧
      content ≠ [] ∧
      (s.edit f change = (false, ⟨s.fs, s.obj.parsed content⟩) ∨
        ∃ l, change ((s.obj.parsed content).list f) = some l ∧
          (s.edit f change = (false, ⟨s.fs, (s.obj.parsed content).setList f l⟩) ∨
            Holds s.fs s.obj.filePath content ∧ s.edit f change =
              (true, ⟨s.fs.set s.obj.filePath
                (some (rewritten content ((s.obj.parsed content).setList f l))),
                (s.obj.parsed content).setList f l⟩))) := by
  rw [Session.edit]
  rcases parseFile_cases s.obj s.fs with hparse | ⟨content, hcontent, -, hne, hparse⟩
  · rw [hparse]
    exact Or.inl rfl
  refine Or.inr ⟨content, hcontent, hne, ?_⟩
  simp only [hparse, Bool.not_true, Bool.false_eq_true, if_false]
  rcases change ((s.obj.parsed content).list f) with _ | l
  · exact Or.inl rfl
  refine Or.inr ⟨l, rfl, ?_⟩
  have hpath : ((s.obj.parsed content).setList f l).filePath = s.obj.filePath := by
    rw [Initcpio.filePath_setList, filePath_parsed]
  rcases write_cases ((s.obj.parsed content).setList f l) s.fs with
    hwrite | ⟨content', hholds, -, hwrite⟩
  · simp only [hwrite]
    exact Or.inl trivial
  · rw [hpath] at hholds hwrite
    obtain rfl := Option.some.inj (hcontent.symm.trans hholds.content_eq)
    simp only [hwrite]
    exact Or.inr ⟨hholds, trivial⟩

/-- An edit writes at most the file of its object. -/
theorem fs_edit (s : Session) (f : Field) (change : List Str → Option (List Str)) :
    (s.edit f change).2.fs = s.fs ∨
      ∃ data, (s.edit f change).2.fs = s.fs.set s.obj.filePath (some data) := by
  rcases edit_cases s f change with
    hedit | ⟨content, -, -, hedit | ⟨l, -, hedit | ⟨-, hedit⟩⟩⟩
  · exact .inl (by rw [hedit])
  · exact .inl (by rw [hedit])
  · exact .inl (by rw [hedit])
  · exact .inr ⟨_, by rw [hedit]⟩

/-- **What a call that succeeds does**: it writes the lists that were parsed, one of them changed. -/
theorem exec_true {s s' : Session} {call : Call} (h : call.exec s = (true, s')) :
    ∃ content l, Holds s.fs s.obj.filePath content ∧ content ≠ [] ∧
      call.change ((s.obj.parsed content).list call.field) = some l ∧
      s'.obj = (s.obj.parsed content).setList call.field l ∧
      s'.fs = s.fs.set s.obj.filePath (some (rewritten content s'.obj)) := by
  rw [call.exec_eq_edit] at h
  rcases edit_cases s call.field call.change with
    hedit | ⟨content, -, hne, hedit | ⟨l, hchange, hedit | ⟨hholds, hedit⟩⟩⟩
  · exact absurd (congrArg Prod.fst (hedit.symm.trans h)) Bool.false_ne_true
  · exact absurd (congrArg Prod.fst (hedit.symm.trans h)) Bool.false_ne_true
  · exact absurd (congrArg Prod.fst (hedit.symm.trans h)) Bool.false_ne_true
  · obtain rfl := congrArg Prod.snd (hedit.symm.trans h)
    exact ⟨content, l, hholds, hne, hchange, rfl, rfl⟩

end CliInstaller
