import Mathlib.Data.List.TakeWhile
import CliInstaller.Gucc.InitcpioWrites

/-!
# `Initcpio`: reading an edit back

A call that succeeds has changed the list in memory. The file holds the new element if some line
starts with the name of the variable, and no closing bracket stands in the list before it.

## Main definitions

* `beforeBracket`: the part of a list that is read back
* `Call.place`: where a call adds its elements
* `ReadBack`, `KeptIn`: an element is read back; the condition on the file

## Main results

* `mem_parseLine_assignment`: what is read back of a list that is written
* `mem_beforeBracket_change`: which elements stand before the first closing bracket
* `readBack_iff`: when an element is read back
-/

namespace CliInstaller

open Splitting

/-- The words up to the first closing bracket, the last one cut there. -/
def beforeBracket : List Str → List Str
  | [] => []
  | w :: l => if ')' ∈ w then [w.takeWhile fun c => c ≠ ')'] else w :: beforeBracket l

section Bracket

variable {l : List Str} {w : Str}

theorem takeWhile_of_not_mem (h : ')' ∉ w) (rest : Str) :
    ((w ++ rest).takeWhile fun c => c ≠ ')') = w ++ rest.takeWhile fun c => c ≠ ')' := by
  refine List.takeWhile_append_of_pos fun c hc => ?_
  rw [decide_eq_true_iff]
  rintro rfl
  exact h hc

theorem takeWhile_of_mem (h : ')' ∈ w) (rest : Str) :
    ((w ++ rest).takeWhile fun c => c ≠ ')') = w.takeWhile fun c => c ≠ ')' := by
  obtain ⟨a, b, rfl, ha⟩ : ∃ a b, w = a ++ ')' :: b ∧ ')' ∉ a :=
    List.eq_append_cons_of_mem h
  rw [List.append_assoc, takeWhile_of_not_mem ha, takeWhile_of_not_mem ha]
  simp

/-- The words before the first closing bracket make the text before it. -/
theorem intercalate_beforeBracket :
    [' '].intercalate (beforeBracket l) =
      ([' '].intercalate l).takeWhile fun c => c ≠ ')' := by
  induction l with
  | nil => simp [beforeBracket]
  | cons w l ih =>
    rw [beforeBracket, intercalate_cons_eq]
    split_ifs with hw
    · rw [takeWhile_of_mem hw, List.intercalate_singleton]
    · rw [takeWhile_of_not_mem hw]
      rcases l with _ | ⟨v, l⟩
      · simp [beforeBracket]
      · have hne : beforeBracket (v :: l) ≠ [] := by
          rw [beforeBracket]
          split_ifs <;> simp
        obtain ⟨u, us, hus⟩ := List.exists_cons_of_ne_nil hne
        have hrest : (v :: l).flatMap (' ' :: ·) = ' ' :: [' '].intercalate (v :: l) := by
          rw [intercalate_cons_eq, List.flatMap_cons, List.cons_append]
        rw [hrest, List.takeWhile_cons_of_pos (by decide), ← ih, hus, List.intercalate_cons_cons,
          List.append_assoc, List.singleton_append]

theorem not_mem_beforeBracket {c : Char} (hl : ∀ v ∈ l, c ∉ v) : ∀ v ∈ beforeBracket l, c ∉ v := by
  induction l with
  | nil => simp [beforeBracket]
  | cons u l ih =>
    have hu := hl u List.mem_cons_self
    have hrest := ih fun v hv => hl v (List.mem_cons_of_mem u hv)
    intro v hv
    rw [beforeBracket] at hv
    split_ifs at hv
    · obtain rfl := List.mem_singleton.mp hv
      exact fun hc => hu ((List.takeWhile_prefix _).subset hc)
    · rcases List.mem_cons.mp hv with rfl | hv
      · exact hu
      · exact hrest v hv

/-- **What is read back of a list that is written**: the words before the first closing bracket. -/
theorem mem_parseLine_assignment {f : Field} (hl : ∀ v ∈ l, ' ' ∉ v) (hw : w ≠ []) :
    w ∈ parseLine (assignment f ([' '].intercalate l)) ↔ w ∈ beforeBracket l := by
  set text := [' '].intercalate l with htext
  obtain ⟨after, hafter⟩ : ∃ after, assignment f text =
      listLine f (text.takeWhile fun c => c ≠ ')') after := by
    by_cases hbracket : ')' ∈ text
    · obtain ⟨a, b, hab, ha⟩ := List.eq_append_cons_of_mem hbracket
      refine ⟨b ++ [')'], ?_⟩
      have htake : (text.takeWhile fun c => c ≠ ')') = a := by
        rw [hab, takeWhile_of_not_mem ha]
        simp
      rw [htake, hab]
      simp [listLine, assignment]
    · refine ⟨[], ?_⟩
      have htake := takeWhile_of_not_mem hbracket []
      rw [List.append_nil, List.takeWhile_nil, List.append_nil] at htake
      rw [htake, listLine, List.append_nil]
  have hinside : ')' ∉ text.takeWhile fun c => c ≠ ')' := fun h => by
    simpa using List.mem_takeWhile_imp h
  have hpieces : ∀ inside, w ∈ splitView ' ' inside ↔ w ∈ pieces ' ' inside := by
    intro inside
    rw [← filter_splitView, List.mem_filter, decide_eq_true_iff, and_iff_left hw]
  rw [hafter, parseLine_listLine hinside, htext, ← intercalate_beforeBracket, hpieces,
    pieces_intercalate (not_mem_beforeBracket hl), List.mem_filter, decide_eq_true_iff,
    and_iff_left hw]

/-- A closing bracket hides everything after it. -/
theorem beforeBracket_append (l' : List Str) :
    beforeBracket (l ++ l') =
      if ∃ v ∈ l, ')' ∈ v then beforeBracket l else l ++ beforeBracket l' := by
  induction l with
  | nil => simp
  | cons v l ih =>
    rw [List.cons_append, beforeBracket, beforeBracket]
    by_cases hv : ')' ∈ v
    · simp [hv]
    · rw [if_neg hv, if_neg hv, ih]
      have hcons : (∃ u ∈ v :: l, ')' ∈ u) ↔ ∃ u ∈ l, ')' ∈ u := by simp [hv]
      by_cases hl : ∃ u ∈ l, ')' ∈ u
      · rw [if_pos hl, if_pos (hcons.mpr hl)]
      · rw [if_neg hl, if_neg (mt hcons.mp hl), List.cons_append]

end Bracket

/-! ## Where the elements go -/

/-- Where a call adds its elements. -/
def Call.place : Call → List Str → Nat
  | .insertHook needle _, l | .insertHooks needle _, l => l.idxOf needle
  | _, l => l.length

/-- The element stands in the list before the first closing bracket, or is new and goes to a place
before it. -/
def Kept (call : Call) (l : List Str) (w : Str) : Prop :=
  w ∈ beforeBracket l ∨ (w ∉ l ∧ ∀ v ∈ l.take (call.place l), ')' ∉ v)

/-- The elements that are new are added at their place. -/
theorem change_eq_some {call : Call} {l l' : List Str} (h : call.change l = some l')
    (hne : call.elements ≠ []) :
    l' = l.take (call.place l) ++ call.elements.filter (· ∉ l) ++ l.drop (call.place l) := by
  have hadd : ∀ ws add, Call.addNew ws add l = some l' → l' = add (ws.filter (· ∉ l)) l := by
    intro ws add h
    rw [Call.addNew, Option.ite_none_left_eq_some] at h
    exact (Option.some.inj h.2).symm
  cases call with
  | appendModule w | appendFile w | appendHook w | appendHooks ws =>
    simp only [Call.change] at h
    rw [hadd _ _ h]
    simp [Call.place, Call.elements]
  | insertHook needle w | insertHooks needle ws =>
    simp only [Call.change] at h
    rw [hadd _ _ h, ← insertAt_idxOf]
    rfl
  | removeModule w | removeHook w => exact absurd rfl hne

/-- **The elements before the first closing bracket** of the list that is written. -/
theorem mem_beforeBracket_change {call : Call} {l l' : List Str} (h : call.change l = some l')
    (helements : ∀ w ∈ call.elements, ')' ∉ w) {w : Str} (hw : w ∈ call.elements) :
    w ∈ beforeBracket l' ↔ Kept call l w := by
  have hnew : ¬ ∃ v ∈ call.elements.filter (· ∉ l), ')' ∈ v := by
    rintro ⟨v, hv, hc⟩
    exact helements v (List.mem_of_mem_filter hv) hc
  have hsplit := beforeBracket_append (l := l.take (call.place l)) (l.drop (call.place l))
  rw [List.take_append_drop] at hsplit
  rw [change_eq_some h (List.ne_nil_of_mem hw), List.append_assoc, beforeBracket_append, Kept, hsplit]
  by_cases hbefore : ∃ v ∈ l.take (call.place l), ')' ∈ v
  -- A bracket before the place of the new elements hides them.
  · rw [if_pos hbefore, if_pos hbefore]
    obtain ⟨v, hv, hc⟩ := hbefore
    exact (or_iff_left fun hkept => hkept.2 v hv hc).symm
  · have hfree : ∀ v ∈ l.take (call.place l), ')' ∉ v := fun v hv hc => hbefore ⟨v, hv, hc⟩
    rw [if_neg hbefore, if_neg hbefore, beforeBracket_append, if_neg hnew, and_iff_left hfree]
    simp only [List.mem_append, List.mem_filter, hw, true_and, decide_eq_true_eq]
    tauto

/-! ## Reading back -/

/-- A fresh object reads the element back. -/
def ReadBack (s : Session) (f : Field) (w : Str) : Prop :=
  ∃ reader, (Initcpio.new s.obj.filePath).parseFile s.fs = (true, reader) ∧ w ∈ reader.list f

/-- Some line starts with the name of the variable, and the last of them keeps the element. -/
def KeptIn (content : Str) (call : Call) (w : Str) : Prop :=
  ∃ line, lastLine content call.field = some line ∧ Kept call (parseLine line) w

theorem parseFile_new {fs : FileSystem} {path content : Str} (hfs : Holds fs path content)
    (hne : content ≠ []) :
    (Initcpio.new path).parseFile fs = (true, (Initcpio.new path).parsed content) := by
  simp [Initcpio.parseFile, Initcpio.new, FileSystem.fileExists, hfs.content_eq,
    readWholeFile_of_readable hfs.content_eq hfs.readable, hne, Initcpio.parsed]

/-- **When an element is read back** after a call that succeeded. -/
theorem readBack_iff {s s' : Session} {call : Call} {content : Str}
    (hcontent : s.fs.content s.obj.filePath = some content)
    (helements : ∀ w ∈ call.elements, IsWord w) (h : call.exec s = (true, s')) {w : Str}
    (hw : w ∈ call.elements) : ReadBack s' call.field w ↔ KeptIn content call w := by
  obtain ⟨content', l, hholds, hne, hchange, hobj, hfs⟩ := exec_true h
  obtain rfl := Option.some.inj (hcontent.symm.trans hholds.content_eq)
  have hpath : s'.obj.filePath = s.obj.filePath := by
    rw [hobj, Initcpio.filePath_setList, filePath_parsed]
  have hself : ∀ f, Named content f → ∀ v ∈ s'.obj.list f, '\n' ∉ v := by
    intro f hnamed
    have hread : ∀ v ∈ (s.obj.parsed content).list f, '\n' ∉ v := fun v => not_mem_list_parsed hnamed
    rw [hobj]
    by_cases hf : f = call.field
    · subst hf
      rw [Initcpio.list_setList_self]
      exact Call.change_forall (fun v hv => (helements v hv).newline) hread hchange
    · rw [Initcpio.list_setList_of_ne _ hf]
      exact hread
  have hread := parseFile_new (hfs ▸ hholds.set _ : Holds s'.fs s.obj.filePath _)
    (rewritten_ne_nil hne)
  rw [ReadBack, hpath, hread, KeptIn]
  simp only [Prod.mk.injEq, true_and, exists_eq_left', list_parsed, list_new,
    lastLine_rewritten hself]
  rcases hlast : lastLine content call.field with _ | line
  · simp
  · have hlist : (s.obj.parsed content).list call.field = parseLine line := by
      rw [list_parsed, hlast, Option.map_some, Option.getD_some]
    rw [hlist] at hchange
    have hspace : ∀ v ∈ l, ' ' ∉ v :=
      Call.change_forall (fun v hv => (helements v hv).space) (fun v hv => (of_mem_parseLine hv).1)
        hchange
    simp only [Option.map_some, Option.getD_some, Option.some.injEq, exists_eq_left']
    rw [hobj, Initcpio.list_setList_self, mem_parseLine_assignment hspace (helements w hw).ne_nil,
      mem_beforeBracket_change hchange (fun v hv => (helements v hv).bracket) hw]

theorem readBack_iff_sample :
    ReadBack ((Call.appendModule (lit "crc32c")).exec
        ⟨.single samplePath sampleContent, .new samplePath⟩).2 .modules (lit "crc32c") ↔
      KeptIn sampleContent (.appendModule (lit "crc32c")) (lit "crc32c") :=
  readBack_iff (s := ⟨.single samplePath sampleContent, .new samplePath⟩)
    (FileSystem.content_single _ _) (by decide +kernel) (Prod.ext (by decide +kernel) rfl)
    (List.mem_singleton_self (lit "crc32c"))

/-- Without a line for the variable the call succeeds and the file is as it was. -/
theorem appendModule_noLine :
    ((Call.appendModule (lit "btrfs")).exec
        ⟨.single samplePath (lit "HOOKS=(base udev)\n"), .new samplePath⟩).1 = true ∧
      ¬ ReadBack ((Call.appendModule (lit "btrfs")).exec
        ⟨.single samplePath (lit "HOOKS=(base udev)\n"), .new samplePath⟩).2 .modules
          (lit "btrfs") := by
  refine ⟨by decide +kernel, ?_⟩
  rintro ⟨reader, hread, hmem⟩
  obtain rfl := (Prod.mk.inj hread).2
  revert hmem
  decide +kernel

end CliInstaller
