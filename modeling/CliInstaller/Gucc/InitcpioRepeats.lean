import Mathlib.Data.List.Perm.Subperm
import CliInstaller.Gucc.InitcpioFrame

/-!
# `Initcpio`: lists without repetition

An operation leaves out the elements that are in the list already. It compares whole elements with
the list as it was before the call, so an element that is given twice is added twice; and the file
is split at spaces and cut at a closing bracket when it is read again.

## Main definitions

* `fileList`: the list a fresh object reads
* `NoRepeats`: no list has a repeated element, in memory and in the file
* `NewWords`: the condition on a call

## Main results

* `subperm_of_change`: what a call makes of a list
* `cleanLists_step`: a call that brings in new words keeps the lists clean, hence without repetition
* `noRepeats_throughout`: so does every run of such calls
-/

namespace CliInstaller

open Splitting Machines

/-- The list a fresh object reads from a content. -/
def fileList (content : Str) (f : Field) : List Str :=
  ((lastLine content f).map parseLine).getD []

/-- **No list has a repeated element**, in memory or in the file. -/
structure NoRepeats (s : Session) : Prop where
  memory : ∀ f, (s.obj.list f).Nodup
  file : ∀ content, s.fs.content s.obj.filePath = some content → ∀ f, (fileList content f).Nodup

/-- No word that is read holds a closing bracket: no line that starts with the name of a variable
has a closing bracket before its opening one, and one after it. -/
def BracketsInOrder (content : Str) : Prop := ∀ f, ∀ w ∈ fileList content f, ')' ∉ w

/-- The elements a call finds missing. -/
def Call.missing (call : Call) (l : List Str) : List Str :=
  call.elements.filter fun el => !l.contains el

/-- All operations on the file. -/
def operationMachine : Machine Session Operation Bool := ⟨Operation.exec⟩

/-- The elements that are missing have no closing bracket and no newline, and the words between
their spaces are distinct, and not in the list. -/
def Call.NewWords (call : Call) (s : Session) : Prop :=
  ∀ content, s.fs.content s.obj.filePath = some content →
    let l := (s.obj.parsed content).list call.field
    (∀ w ∈ call.missing l, ')' ∉ w ∧ '\n' ∉ w) ∧
      (l ++ (call.missing l).flatMap fun w => w.splitOn ' ').Nodup

/-- The condition on an operation. -/
def NewWords : Operation → Session → Prop
  | .call call, s => call.NewWords s
  | .parseFile, _ | .write, _ => True

section Lists

variable {l l' ls : List Str} {call : Call}

/-- **What a call makes of a list**: the list with the missing elements, or a part of it. -/
theorem subperm_of_change (h : call.change l = some l') : l'.Subperm (l ++ call.missing l) := by
  have hadd : ∀ ws add, (∀ ws l : List Str, (add ws l).Perm (ws ++ l)) →
      Call.addNew ws add l = some l' →
        l'.Subperm (l ++ ws.filter fun el => !l.contains el) := by
    intro ws add hperm h
    rw [addNew_eq_ite, Option.ite_none_left_eq_some] at h
    obtain rfl := Option.some.inj h.2
    exact ((hperm _ _).trans List.perm_append_comm).subperm
  cases call with
  | appendModule w | appendFile w | appendHook w | appendHooks ws =>
    exact hadd _ _ (fun _ _ => List.perm_append_comm) h
  | insertHook needle w | insertHooks needle ws => exact hadd _ _ (insertBefore_perm needle) h
  | removeModule w | removeHook w =>
    rw [Call.change, Option.ite_none_right_eq_some] at h
    obtain rfl := Option.some.inj h.2
    exact (List.erase_sublist.trans (List.sublist_append_left _ _)).subperm

theorem nodup_of_subperm (h : l'.Subperm l) (hl : l.Nodup) : l'.Nodup := by
  obtain ⟨m, hperm, hsub⟩ := h
  exact hperm.nodup_iff.mp (hl.sublist hsub)

/-- Lists whose pieces are distinct are distinct. -/
theorem nodup_of_nodup_flatMap_splitOn (h : (ls.flatMap fun w => w.splitOn ' ').Nodup) :
    ls.Nodup := by
  induction ls with
  | nil => exact List.nodup_nil
  | cons w ls ih =>
    rw [List.flatMap_cons, List.nodup_append] at h
    obtain ⟨-, hrest, hapart⟩ := h
    refine List.nodup_cons.mpr ⟨fun hw => ?_, ih hrest⟩
    obtain ⟨p, ps, hp⟩ := List.exists_cons_of_ne_nil (List.splitOn_ne_nil ' ' w)
    have hmem : p ∈ w.splitOn ' ' := by rw [hp]; exact List.mem_cons_self
    exact hapart p hmem p (List.mem_flatMap.mpr ⟨w, hw, hmem⟩) rfl

theorem flatMap_subperm (h : l'.Subperm l) :
    (l'.flatMap fun w => w.splitOn ' ').Subperm (l.flatMap fun w => w.splitOn ' ') := by
  obtain ⟨m, hperm, hsub⟩ := h
  exact ((hperm.flatMap_right _).symm.subperm).trans (hsub.flatMap _).subperm

theorem flatMap_splitOn_of_words (hl : ∀ w ∈ l, ' ' ∉ w) :
    (l.flatMap fun w => w.splitOn ' ') = l := by
  induction l with
  | nil => rfl
  | cons w l ih =>
    rw [List.flatMap_cons, ih fun v hv => hl v (List.mem_cons_of_mem w hv),
      List.splitOn_eq_singleton (hl w List.mem_cons_self), List.singleton_append]

/-- What is read back of a list without brackets: its pieces, none for the empty text. -/
theorem parseLine_assignment_eq (f : Field) (hl : ∀ w ∈ l, ')' ∉ w) :
    parseLine (assignment f ([' '].intercalate l)) = [] ∨
      parseLine (assignment f ([' '].intercalate l)) = l.flatMap fun w => w.splitOn ' ' := by
  have hline := @parseLine_listLine f ([' '].intercalate l) []
    (mem_intercalate_space (by decide) hl)
  rw [listLine, List.append_nil] at hline
  rw [hline]
  by_cases hempty : [' '].intercalate l = []
  · exact Or.inl (by rw [hempty, splitView_nil])
  · have hne : l ≠ [] := by
      rintro rfl
      exact hempty rfl
    exact Or.inr (by rw [splitView_of_ne_nil _ hempty, splitOn_intercalate_eq_flatMap hne])

end Lists

/-! ## What the operations keep -/

/-- What the operations keep: the lists that are read from the file hold no closing bracket, and
those in memory that have a line can be written. -/
structure CleanLists (s : Session) : Prop extends NoRepeats s where
  brackets : ∀ content, s.fs.content s.obj.filePath = some content → BracketsInOrder content
  words : ∀ content, s.fs.content s.obj.filePath = some content → ∀ f, Named content f →
    (∀ w ∈ s.obj.list f, ')' ∉ w ∧ '\n' ∉ w) ∧
      ((s.obj.list f).flatMap fun w => w.splitOn ' ').Nodup

section Steps

variable {s : Session} {content : Str}

theorem list_parsed_of_named {self : Initcpio} {f : Field} (hnamed : Named content f) :
    (self.parsed content).list f = fileList content f := by
  obtain ⟨line, hline⟩ := named_iff_lastLine.mp hnamed
  rw [list_parsed, fileList, hline, Option.map_some, Option.getD_some, Option.getD_some]

theorem list_parsed_of_not_named {self : Initcpio} {f : Field} (hnamed : ¬ Named content f) :
    (self.parsed content).list f = self.list f := by
  have hnone : lastLine content f = none := by
    by_contra h
    exact hnamed (named_iff_lastLine.mpr (Option.ne_none_iff_exists'.mp h))
  rw [list_parsed, hnone, Option.map_none, Option.getD_none]

theorem not_mem_space_of_named {f : Field} (hnamed : Named content f) :
    ∀ w ∈ fileList content f, ' ' ∉ w := by
  obtain ⟨line, hline⟩ := named_iff_lastLine.mp hnamed
  intro w hw
  rw [fileList, hline, Option.map_some, Option.getD_some] at hw
  exact (of_mem_parseLine hw).1

/-- Parsing keeps the lists clean. -/
theorem CleanLists.parsed (hs : CleanLists s) (hcontent : s.fs.content s.obj.filePath = some content) :
    CleanLists ⟨s.fs, s.obj.parsed content⟩ := by
  have hfile : ∀ content', s.fs.content (s.obj.parsed content).filePath = some content' →
      content' = content := by
    intro content' h
    rw [filePath_parsed] at h
    exact Option.some.inj (h.symm.trans hcontent)
  refine ⟨⟨fun f => ?_, ?_⟩, ?_, ?_⟩
  · by_cases hnamed : Named content f
    · rw [list_parsed_of_named hnamed]
      exact hs.file content hcontent f
    · rw [list_parsed_of_not_named hnamed]
      exact hs.memory f
  · intro content' h
    rw [hfile content' h]
    exact hs.file content hcontent
  · intro content' h
    rw [hfile content' h]
    exact hs.brackets content hcontent
  · intro content' h f hnamed
    rw [hfile content' h] at hnamed
    -- The words of a line hold no blank, so they are their own pieces.
    refine ⟨fun w hw => ⟨?_, not_mem_list_parsed hnamed hw⟩, ?_⟩
    · rw [list_parsed_of_named hnamed] at hw
      exact hs.brackets content hcontent f w hw
    · rw [list_parsed_of_named hnamed, flatMap_splitOn_of_words (not_mem_space_of_named hnamed)]
      exact hs.file content hcontent f

/-- Bringing in new words keeps the lists clean. -/
theorem CleanLists.setList (hs : CleanLists s)
    (hcontent : s.fs.content s.obj.filePath = some content) {call : Call} {l : List Str}
    (hchange : call.change (s.obj.list call.field) = some l)
    (hspace : Named content call.field → ∀ w ∈ s.obj.list call.field, ' ' ∉ w)
    (hclean : ∀ w ∈ call.missing (s.obj.list call.field), ')' ∉ w ∧ '\n' ∉ w)
    (hnew : (s.obj.list call.field ++
      (call.missing (s.obj.list call.field)).flatMap fun w => w.splitOn ' ').Nodup) :
    CleanLists ⟨s.fs, s.obj.setList call.field l⟩ := by
  have hsub := subperm_of_change hchange
  obtain ⟨hold, hmissing, -⟩ := List.nodup_append.mp hnew
  have hl : l.Nodup := by
    refine nodup_of_subperm hsub (List.nodup_append.mpr
      ⟨hold, nodup_of_nodup_flatMap_splitOn hmissing, ?_⟩)
    rintro w hw v hv rfl
    simp [Call.missing, hw] at hv
  have hfile : ∀ content', s.fs.content (s.obj.setList call.field l).filePath = some content' →
      s.fs.content s.obj.filePath = some content' := by
    intro content' h
    rwa [Initcpio.filePath_setList] at h
  refine ⟨⟨fun f => ?_, fun content' h => hs.file content' (hfile content' h)⟩,
    fun content' h => hs.brackets content' (hfile content' h), fun content' h f hnamed => ?_⟩
  · by_cases hf : f = call.field
    · subst hf
      rwa [Initcpio.list_setList_self]
    · rw [Initcpio.list_setList_of_ne _ hf]
      exact hs.memory f
  · have hwords := hs.words content' (hfile content' h)
    obtain rfl := Option.some.inj (hcontent.symm.trans (hfile content' h))
    by_cases hf : f = call.field
    · subst hf
      rw [Initcpio.list_setList_self]
      refine ⟨fun w hw => ?_, ?_⟩
      · rcases List.mem_append.mp (hsub.subset hw) with hw | hw
        · exact (hwords _ hnamed).1 w hw
        · exact hclean w hw
      · refine nodup_of_subperm (flatMap_subperm hsub) ?_
        rw [List.flatMap_append, flatMap_splitOn_of_words (hspace hnamed)]
        exact hnew
    · rw [Initcpio.list_setList_of_ne _ hf]
      exact hwords f hnamed

/-- What is read of a list that was written without brackets. -/
theorem fileList_rewritten {self : Initcpio}
    (hself : ∀ f, Named content f → ∀ w ∈ self.list f, ')' ∉ w ∧ '\n' ∉ w) (f : Field) :
    fileList (rewritten content self) f = [] ∨ Named content f ∧
      fileList (rewritten content self) f = (self.list f).flatMap fun w => w.splitOn ' ' := by
  rw [fileList, lastLine_rewritten fun f hf w hw => (hself f hf w hw).2]
  by_cases hnamed : Named content f
  · obtain ⟨line, hline⟩ := named_iff_lastLine.mp hnamed
    rw [hline, Option.map_some, Option.map_some, Option.getD_some, and_iff_right hnamed]
    exact parseLine_assignment_eq f fun w hw => (hself f hnamed w hw).1
  · have hnone : lastLine content f = none := by
      by_contra h
      exact hnamed (named_iff_lastLine.mpr (Option.ne_none_iff_exists'.mp h))
    rw [hnone]
    exact Or.inl rfl

/-- Writing keeps the lists clean. -/
theorem CleanLists.written (hs : CleanLists s)
    (hcontent : s.fs.content s.obj.filePath = some content) :
    CleanLists ⟨s.fs.set s.obj.filePath (some (rewritten content s.obj)), s.obj⟩ := by
  have hwords := hs.words content hcontent
  have hread := fileList_rewritten fun f hf => (hwords f hf).1
  refine ⟨⟨hs.memory, fun content' h f => ?_⟩, fun content' h f w hw => ?_, fun content' h f hnamed => ?_⟩
  all_goals
    rw [FileSystem.content_set_self] at h
    obtain rfl := Option.some.inj h
  · rcases hread f with hnil | ⟨hnamed, heq⟩
    · rw [hnil]
      exact List.nodup_nil
    · rw [heq]
      exact (hwords f hnamed).2
  · rcases hread f with hnil | ⟨hnamed, heq⟩
    · rw [hnil] at hw
      exact absurd hw List.not_mem_nil
    · rw [heq] at hw
      obtain ⟨v, hv, hw⟩ := List.mem_flatMap.mp hw
      by_cases hempty : w = []
      · simp [hempty]
      · have hsub := (infix_of_mem_pieces (mem_pieces.mpr ⟨hw, hempty⟩)).subset
        exact fun hc => ((hwords f hnamed).1 v hv).1 (hsub hc)
  · refine hwords f ?_
    rw [named_iff_lastLine, lastLine_rewritten fun f hf w hw => ((hwords f hf).1 w hw).2] at hnamed
    rw [named_iff_lastLine]
    obtain ⟨line, hline⟩ := hnamed
    obtain ⟨line', hline', -⟩ := Option.map_eq_some_iff.mp hline
    exact ⟨line', hline'⟩

/-- **An operation that brings in new words** keeps the lists clean. -/
theorem cleanLists_step {op : Operation} (hs : CleanLists s) (hnew : NewWords op s) :
    CleanLists (operationMachine.step op s).2 := by
  cases op with
  | parseFile =>
    rcases parseFile_cases s.obj s.fs with hparse | ⟨content, hcontent, -, -, hparse⟩
    · simpa [operationMachine, Operation.exec, hparse] using hs
    · simpa [operationMachine, Operation.exec, hparse] using hs.parsed hcontent
  | write =>
    rcases write_cases s.obj s.fs with hwrite | ⟨content, hholds, -, hwrite⟩
    · simpa [operationMachine, Operation.exec, hwrite] using hs
    · simpa [operationMachine, Operation.exec, hwrite] using hs.written hholds.content_eq
  | call call =>
    show CleanLists (call.exec s).2
    rw [call.exec_eq_edit]
    rcases edit_cases s call.field call.change with
      hedit | ⟨content, hcontent, -, hedit | ⟨l, hchange, hedit⟩⟩
    · rw [hedit]
      exact hs
    · rw [hedit]
      exact hs.parsed hcontent
    · obtain ⟨hclean, hnodup⟩ := hnew content hcontent
      have hparsed := hs.parsed hcontent
      have hpath : (s.obj.parsed content).filePath = s.obj.filePath := filePath_parsed s.obj content
      have hset : CleanLists ⟨s.fs, (s.obj.parsed content).setList call.field l⟩ := by
        refine hparsed.setList (hpath.symm ▸ hcontent) hchange (fun hnamed => ?_) hclean hnodup
        show ∀ w ∈ (s.obj.parsed content).list call.field, ' ' ∉ w
        rw [list_parsed_of_named hnamed]
        exact not_mem_space_of_named hnamed
      rcases hedit with hedit | ⟨hholds, hedit⟩
      · rw [hedit]
        exact hset
      · rw [hedit]
        have hcontent' : s.fs.content ((s.obj.parsed content).setList call.field l).filePath =
            some content := by
          rw [Initcpio.filePath_setList, hpath, hcontent]
        have hwritten := hset.written hcontent'
        rwa [Initcpio.filePath_setList, hpath] at hwritten

end Steps

/-- **No list gains a repeated element** in a run of operations on a fresh object that bring in new
words, from a file without repetition and with its brackets in order. -/
theorem noRepeats_throughout {fs : FileSystem} {path : Str} {ops : List Operation}
    (hfile : ∀ content, fs.content path = some content →
      (∀ f, (fileList content f).Nodup) ∧ BracketsInOrder content)
    (hnew : operationMachine.Along NewWords ops ⟨fs, .new path⟩) :
    operationMachine.Throughout NoRepeats ops ⟨fs, .new path⟩ := by
  refine Machine.Throughout.of_along (I := CleanLists) (fun s hs => hs.toNoRepeats)
    (fun op s hs hop => cleanLists_step hs hop) hnew ?_
  refine ⟨⟨fun f => ?_, fun content h => (hfile content h).1⟩, fun content h => (hfile content h).2,
    fun content h f hnamed => ?_⟩
  · simp [list_new]
  · simp [list_new]

/-- A call that repeats no element. -/
theorem noRepeats_throughout_sample :
    operationMachine.Throughout NoRepeats
      [.call (.insertHooks (lit "udev") [lit "base", lit "plymouth"]), .write]
      ⟨.single samplePath sampleContent, .new samplePath⟩ := by
  have hcontent : ∀ content,
      (FileSystem.single samplePath sampleContent).content samplePath = some content →
        content = sampleContent := by
    intro content h
    rw [FileSystem.content_single] at h
    exact (Option.some.inj h).symm
  refine noRepeats_throughout (fun content h => ?_) ⟨fun content h => ?_, trivial, trivial⟩
  · rw [hcontent content h]
    exact ⟨fun f => by cases f <;> decide +kernel, fun f => by cases f <;> decide +kernel⟩
  · rw [hcontent content h]
    decide +kernel

/-- An element that is given twice is added twice. -/
theorem appendHooks_twice :
    NoRepeats ⟨.single samplePath sampleContent, .new samplePath⟩ ∧
      ¬ NoRepeats (operationMachine.step (.call (.appendHooks [lit "usr", lit "usr"]))
        ⟨.single samplePath sampleContent, .new samplePath⟩).2 := by
  refine ⟨⟨fun f => by simp [list_new], fun content h f => ?_⟩, fun h => ?_⟩
  · obtain rfl := Option.some.inj ((FileSystem.content_single _ _).symm.trans h)
    cases f <;> decide +kernel
  · have hhooks := h.memory .hooks
    revert hhooks
    decide +kernel

end CliInstaller
