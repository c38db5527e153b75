import CliInstaller.Gucc.InitcpioRefinement

/-!
# `Initcpio` on lists that stand on one line

A list that stands on one line may have any number of spaces between its words, and a comment after
its closing bracket. The operations then see empty words, which they carry along: up to those, the
file still refines the three lists.

## Main definitions

* `OnOneLine`: a variable has its list on one line
* `SpacedLists`: the object works on a file with its lists on one line each

## Main results

* `change_pieces`: an operation sees past the empty words
* `simulates_spaced`: the file simulates the lists, call by call
-/

namespace CliInstaller

open Splitting Machines

/-- One line starts with the name of the variable, and it is `NAME=(inside)after` with the words
inside, separated by spaces. -/
def OnOneLine (content : Str) (f : Field) (ws : List Str) : Prop :=
  ∃ inside after, ((lines content).filter fun line => startsWith line f.name) =
      [listLine f inside after] ∧ ')' ∉ inside ∧ pieces ' ' inside = ws

/-- The words of a list are determined by the line. -/
theorem OnOneLine.unique {content : Str} {f : Field} {ws ws' : List Str}
    (h : OnOneLine content f ws) (h' : OnOneLine content f ws') : ws = ws' := by
  obtain ⟨inside, after, hline, hinside, rfl⟩ := h
  obtain ⟨inside', after', hline', hinside', rfl⟩ := h'
  have hsame := congrArg parseLine (List.singleton_inj.mp (hline.symm.trans hline'))
  rw [parseLine_listLine hinside, parseLine_listLine hinside'] at hsame
  rw [← filter_splitView, ← filter_splitView, hsame]

theorem OnOneLine.ne_nil {content : Str} {f : Field} {ws : List Str} (h : OnOneLine content f ws) :
    content ≠ [] := by
  rintro rfl
  obtain ⟨inside, after, hline, -⟩ := h
  simp [lines, startsWith_nil_name] at hline

/-! ## The operations see past the empty words -/

/-- The words of a list that are not empty. -/
def nonEmptyWords (l : List Str) : List Str := l.filter (· ≠ [])

section Words

variable {w needle : Str} {l ws : List Str}

theorem mem_nonEmptyWords (hw : w ≠ []) : w ∈ nonEmptyWords l ↔ w ∈ l := by
  simp [nonEmptyWords, hw]

theorem nonEmptyWords_append (l₁ l₂ : List Str) :
    nonEmptyWords (l₁ ++ l₂) = nonEmptyWords l₁ ++ nonEmptyWords l₂ :=
  List.filter_append _ _

theorem nonEmptyWords_of_forall (h : ∀ w ∈ l, w ≠ []) : nonEmptyWords l = l := by
  rw [nonEmptyWords, List.filter_eq_self]
  exact fun w hw => decide_eq_true (h w hw)

theorem nonEmptyWords_insertBefore (hneedle : needle ≠ []) (hws : ∀ w ∈ ws, w ≠ []) :
    nonEmptyWords (insertBefore needle ws l) = insertBefore needle ws (nonEmptyWords l) := by
  induction l with
  | nil => exact nonEmptyWords_of_forall hws
  | cons v l ih =>
    by_cases hv : v = needle
    · subst hv
      have hcons : nonEmptyWords (v :: l) = v :: nonEmptyWords l :=
        List.filter_cons_of_pos (by simpa using hneedle)
      rw [insertBefore, if_pos rfl, nonEmptyWords_append, nonEmptyWords_of_forall hws, hcons,
        insertBefore, if_pos rfl]
    · rw [insertBefore, if_neg hv]
      by_cases hempty : v = []
      · have hdrop : ∀ l, nonEmptyWords (v :: l) = nonEmptyWords l :=
          fun l => List.filter_cons_of_neg (by simpa using hempty)
        rw [hdrop, hdrop, ih]
      · have hkeep : ∀ l, nonEmptyWords (v :: l) = v :: nonEmptyWords l :=
          fun l => List.filter_cons_of_pos (by simpa using hempty)
        rw [hkeep, hkeep, insertBefore, if_neg hv, ih]

theorem nonEmptyWords_erase : nonEmptyWords (l.erase w) = (nonEmptyWords l).erase w :=
  List.erase_filter.symm

theorem addNew_nonEmptyWords {add : List Str → List Str → List Str} (hws : ∀ w ∈ ws, w ≠ [])
    (hadd : ∀ ws l, (∀ w ∈ ws, w ≠ []) →
      nonEmptyWords (add ws l) = add ws (nonEmptyWords l)) :
    (Call.addNew ws add l).map nonEmptyWords = Call.addNew ws add (nonEmptyWords l) := by
  have hsubset : ws ⊆ nonEmptyWords l ↔ ws ⊆ l := by
    simp only [List.subset_def]
    exact forall₂_congr fun w hw => mem_nonEmptyWords (hws w hw)
  have hnew : ws.filter (· ∉ nonEmptyWords l) = ws.filter (· ∉ l) :=
    List.filter_congr fun w hw => by simp [mem_nonEmptyWords (hws w hw)]
  simp only [Call.addNew, hsubset, hnew]
  split_ifs
  · rfl
  · rw [Option.map_some, hadd _ _ fun w hw => hws w (List.mem_of_mem_filter hw)]

/-- **An operation sees past the empty words.** -/
theorem change_pieces {call : Call} (hcall : ∀ w ∈ call.args, w ≠ []) :
    (call.change l).map nonEmptyWords = call.change (nonEmptyWords l) := by
  have happend : ∀ ws l : List Str, (∀ w ∈ ws, w ≠ []) →
      nonEmptyWords (l ++ ws) = nonEmptyWords l ++ ws := by
    intro ws l hws
    rw [nonEmptyWords_append, nonEmptyWords_of_forall hws]
  cases call with
  | appendModule w | appendFile w | appendHook w | appendHooks ws =>
    exact addNew_nonEmptyWords hcall happend
  | insertHook needle w | insertHooks needle ws =>
    exact addNew_nonEmptyWords (fun w hw => hcall w (.tail _ hw))
      fun _ _ => nonEmptyWords_insertBefore (hcall needle List.mem_cons_self)
  | removeModule w | removeHook w =>
    have hw := hcall w List.mem_cons_self
    simp only [Call.change, mem_nonEmptyWords hw]
    split_ifs
    · rw [Option.map_some, nonEmptyWords_erase]
    · rfl

end Words

/-! ## Reading and writing the lines -/

/-- A piece of a line between brackets. -/
structure IsPiece (w : Str) : Prop where
  space : ' ' ∉ w
  bracket : ')' ∉ w
  newline : '\n' ∉ w

theorem IsWord.isPiece {w : Str} (h : IsWord w) : IsPiece w := ⟨h.space, h.bracket, h.newline⟩

section Lines

variable {content : Str} {L : Lists} {f : Field}

/-- Pieces written into an assignment: their words are read back. -/
theorem pieces_intercalate_space {ws : List Str} (hws : ∀ w ∈ ws, IsPiece w) :
    pieces ' ' ([' '].intercalate ws) = nonEmptyWords ws := by
  rcases ws with _ | ⟨w, ws⟩
  · simp [nonEmptyWords]
  · rw [pieces, List.splitOn_intercalate ' ' (fun v hv => (hws v hv).space) (List.cons_ne_nil _ _),
      nonEmptyWords]

/-- **Reading lists on one line each** succeeds, and gives their words and empty words. -/
theorem parseFile_of_onOneLine {fs : FileSystem} {obj : Initcpio}
    (hfs : Holds fs obj.filePath content) (h : ∀ f, OnOneLine content f (L f)) :
    ∃ obj' : Initcpio, obj.parseFile fs = (true, obj') ∧ obj'.filePath = obj.filePath ∧
      ∀ f, nonEmptyWords (obj'.list f) = L f ∧ ∀ w ∈ obj'.list f, IsPiece w := by
  refine ⟨(makeSplitView content '\n').foldl Initcpio.parseStep obj, ?_,
    filePath_foldl_parseStep obj _, fun f => ?_⟩
  · simp [Initcpio.parseFile, FileSystem.fileExists, hfs.content_eq,
      readWholeFile_of_readable hfs.content_eq hfs.readable, (h .modules).ne_nil]
  · obtain ⟨inside, after, hline, hinside, hwords⟩ := h f
    rw [list_foldl_parseStep,
      filter_makeSplitView _ (startsWith · f.name) (startsWith_nil_name f), hline]
    simp only [List.getLast?_singleton, Option.map_some, Option.getD_some,
      parseLine_listLine hinside]
    refine ⟨by rw [← hwords, ← filter_splitView, nonEmptyWords], fun w hw => ?_⟩
    have hmem : listLine f inside after ∈ lines content := by
      have : listLine f inside after ∈ (lines content).filter fun line => startsWith line f.name := by
        simp [hline]
      exact (List.mem_filter.mp this).1
    have hnewline : '\n' ∉ inside := by
      intro hc
      refine not_mem_of_mem_splitOn hmem ?_
      simp [listLine, assignment, hc]
    by_cases hne : inside = []
    · simp [hne] at hw
    · rw [splitView_of_ne_nil _ hne] at hw
      by_cases hempty : w = []
      · subst hempty
        exact ⟨List.not_mem_nil, List.not_mem_nil, List.not_mem_nil⟩
      · have hsub := (infix_of_mem_pieces (mem_pieces.mpr ⟨hw, hempty⟩)).subset
        exact ⟨not_mem_of_mem_splitOn hw, fun hc => hinside (hsub hc),
          fun hc => hnewline (hsub hc)⟩

/-- **Writing leaves the lists on one line each.** -/
theorem onOneLine_rewritten {self : Initcpio} (h : ∀ f, OnOneLine content f (L f))
    (hself : ∀ f, ∀ w ∈ self.list f, IsPiece w) (f : Field) :
    OnOneLine (rewritten content self) f (nonEmptyWords (self.list f)) := by
  obtain ⟨inside, after, hline, -, -⟩ := h f
  refine ⟨[' '].intercalate (self.list f), [], ?_, ?_, pieces_intercalate_space (hself f)⟩
  · rw [listLine, List.append_nil]
    rw [filter_lines_rewritten fun f _ w hw => (hself f w hw).newline, hline]
    rfl
  · exact mem_intercalate_space (by decide) fun w hw => (hself f w hw).bracket

end Lines

/-! ## The simulation -/

/-- The object works on a file with the lists on one line each. -/
structure SpacedLists (path : Str) (s : Session) (L : Lists) : Prop where
  path_eq : s.obj.filePath = path
  file : ∃ content, Holds s.fs path content ∧ ∀ f, OnOneLine content f (L f)

section Simulation

variable {path : Str} {s : Session} {L : Lists} {call : Call}

/-- What one call does to lists on one line each. -/
theorem exec_spaced (hs : SpacedLists path s L) (hcall : ∀ w ∈ call.args, IsWord w) :
    (fileMachine.step call s).1 = (listsMachine.step call L).1 ∧
      SpacedLists path (fileMachine.step call s).2 (listsMachine.step call L).2 := by
  obtain ⟨rfl, content, hfs, hcontent⟩ := hs
  obtain ⟨obj', hparse, hpath, hlist⟩ := parseFile_of_onOneLine hfs hcontent
  have hchange := change_pieces (l := obj'.list call.field) fun w hw => (hcall w hw).ne_nil
  rw [(hlist call.field).1] at hchange
  simp only [fileMachine, listsMachine, call.exec_eq_edit s, Session.edit, hparse, ← hchange]
  rcases hraw : call.change (obj'.list call.field) with _ | l
  · exact ⟨rfl, hpath, content, hfs, hcontent⟩
  · set obj'' := obj'.setList call.field l with hobj''
    have hself : ∀ f, ∀ w ∈ obj''.list f, IsPiece w := by
      intro f
      by_cases hf : f = call.field
      · subst hf
        rw [hobj'', Initcpio.list_setList_self]
        exact Call.change_forall (fun w hw => (hcall w (call.elements_subset_args hw)).isPiece)
          (hlist _).2 hraw
      · rw [hobj'', Initcpio.list_setList_of_ne _ hf]
        exact (hlist f).2
    have hlists : ∀ f, nonEmptyWords (obj''.list f) =
        Function.update L call.field (nonEmptyWords l) f := by
      intro f
      by_cases hf : f = call.field
      · subst hf
        rw [hobj'', Initcpio.list_setList_self, Function.update_self]
      · rw [hobj'', Initcpio.list_setList_of_ne _ hf, Function.update_of_ne hf, (hlist f).1]
    have hpath'' : obj''.filePath = s.obj.filePath := by rw [hobj'', Initcpio.filePath_setList, hpath]
    have hwrite := @write_eq content obj'' _ (hpath''.symm ▸ hfs) (hcontent .modules).ne_nil
    simp only [Bool.not_true, Bool.false_eq_true, if_false, Option.map_some, ← hobj'', hwrite]
    refine ⟨trivial, hpath'', rewritten content obj'', hpath''.symm ▸ hfs.set _, fun f => ?_⟩
    rw [← hlists f]
    exact onOneLine_rewritten hcontent hself f

/-- **The file simulates the lists**, up to empty words. -/
theorem simulates_spaced (path : Str) :
    Simulates fileMachine listsMachine (SpacedLists path)
      fun call => ∀ w ∈ call.args, IsWord w where
  output hcall hs := (exec_spaced hs hcall).1
  next hcall hs := (exec_spaced hs hcall).2

end Simulation

end CliInstaller
